import SeismicHazard.Text.Combining
import SeismicHazard.Text.Unprintable
/-!
# Quoted — a text shown between quotes

Error messages show an offending text between double quotes, with the characters that would be misread or invisible
written as escapes: the combining characters, wherever they stand, and the unprintable ones.  Every other character, a
single quote included, stands for itself.
-/
namespace SeismicHazard

namespace Quoted

def hexDigits (n : Nat) : List Char := Nat.toDigits 16 n

def escape (c : Char) : List Char :=
  match c with
  | '"' => ['\\', '"']
  | '\\' => ['\\', '\\']
  | '\n' => ['\\', 'n']
  | '\r' => ['\\', 'r']
  | '\t' => ['\\', 't']
  | '\x00' => ['\\', '0']
  | c =>
    if isCombining c || isUnprintable c then ['\\', 'u', '\x7b'] ++ hexDigits c.toNat ++ ['\x7d'] else [c]

end Quoted

def quoted (s : String) : String :=
  String.ofList ('"' :: (s.toList.flatMap Quoted.escape ++ ['"']))

end SeismicHazard
