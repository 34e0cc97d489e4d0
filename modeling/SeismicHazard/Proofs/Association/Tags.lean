import SeismicHazard.Association.Tag
import Mathlib.Algebra.Group.Nat.Defs
import Mathlib.Data.List.TakeWhile
/-!
# Tags — which texts name a collection

A tag names a collection by what stands before its first bar: `col=`, at most one plus sign, and the decimal digits of a
number below the bound of identifiers, with any number of zeros in front.  `Names` says so of the characters alone.
Each part of the reader is matched with its part of the grammar, and `ofTag_grammar` puts the parts together.
-/
namespace SeismicHazard
namespace CollectionId

/-! ## The grammar -/

/-- The characters before the first bar of a text, or all of them if there is no bar. -/
def IsHead (text head : List Char) : Prop := '|' ∉ head ∧ (text = head ∨ ∃ rest, text = head ++ '|' :: rest)

def Writes (digits : List Char) (n : Nat) : Prop :=
  digits ≠ [] ∧ (∀ d ∈ digits, d.isDigit = true) ∧ Nat.ofDigitChars 10 digits 0 = n

def WritesSigned (chars : List Char) (n : Nat) : Prop :=
  Writes chars n ∨ ∃ digits, chars = '+' :: digits ∧ Writes digits n

/-- **A tag names a collection.** -/
def Names (tag : String) (c : CollectionId) : Prop :=
  ∃ number, IsHead tag.toList ("col=".toList ++ number) ∧ WritesSigned number c.val ∧ c.val < 2 ^ 32

def padded (zeros : Nat) (c : CollectionId) : String :=
  "col=" ++ String.ofList (List.replicate zeros '0') ++ toString c

/-! ## Reading -/

theorem isHead_iff {text head : List Char} : IsHead text head ↔ CollectionId.head text = head := by
  unfold CollectionId.head
  constructor
  · rintro ⟨hbar, htext⟩
    have hall : ∀ c ∈ head, decide (c ≠ '|') = true := fun c hc => decide_eq_true (ne_of_mem_of_not_mem hc hbar)
    rcases htext with rfl | ⟨rest, rfl⟩
    · exact List.takeWhile_eq_self_iff.2 hall
    · rw [List.takeWhile_append_of_pos hall, List.takeWhile_cons_of_neg (by simp), List.append_nil]
  · rintro rfl
    refine ⟨fun hbar => by simpa using List.mem_takeWhile_imp hbar, ?_⟩
    have hsplit := List.takeWhile_append_dropWhile (p := (· ≠ '|')) (l := text)
    cases hrest : text.dropWhile (· ≠ '|') with
    | nil =>
      rw [hrest, List.append_nil] at hsplit
      exact Or.inl hsplit.symm
    | cons c rest =>
      -- the character at which the head ends is a bar
      have hc := List.head_dropWhile_not (· ≠ '|') (hrest ▸ List.cons_ne_nil c rest)
      simp only [hrest, List.head_cons, decide_eq_false_iff_not, not_not] at hc
      rw [hrest, hc] at hsplit
      exact Or.inr ⟨rest, hsplit.symm⟩

theorem digit?_eq (c : Char) : digit? c = if c.isDigit then some (c.toNat - 48) else none := by
  unfold digit?
  simp only [Char.isDigit, Bool.and_eq_true, decide_eq_true_eq]
  rfl

theorem foldlM_digit? : ∀ {cs : List Char} {n m : Nat},
    cs.foldlM (fun n c => (digit? c).map (fun d => 10 * n + d)) n = some m ↔
      (∀ c ∈ cs, c.isDigit = true) ∧ Nat.ofDigitChars 10 cs n = m
  | [], n, m => by simp
  | c :: cs, n, m => by
    rw [List.foldlM_cons, digit?_eq]
    cases hc : c.isDigit with
    | false => simp [hc]
    | true =>
      change cs.foldlM _ (10 * n + (c.toNat - 48)) = some m ↔ _
      rw [foldlM_digit?, Nat.ofDigitChars_eq_foldl, Nat.ofDigitChars_eq_foldl, List.forall_mem_cons, List.foldl_cons]
      simp [hc]

theorem ofDigits?_eq_some {cs : List Char} {n : Nat} : ofDigits? cs = some n ↔ Writes cs n := by
  cases cs with
  | nil => simp [ofDigits?, Writes]
  | cons c cs =>
    have hne : c :: cs ≠ [] := List.cons_ne_nil c cs
    rw [ofDigits?, foldlM_digit?]
    · exact (and_iff_right hne).symm
    · exact hne

theorem ofSigned?_eq_some {cs : List Char} {n : Nat} : ofSigned? cs = some n ↔ WritesSigned cs n := by
  unfold ofSigned? WritesSigned
  split
  · rename_i cs
    have hplus : ¬Writes ('+' :: cs) n := fun h => absurd (h.2.1 '+' (List.mem_cons_self ..)) (by decide)
    simp [ofDigits?_eq_some, hplus]
  · rename_i hplus
    rw [ofDigits?_eq_some]
    refine ⟨Or.inl, ?_⟩
    rintro (h | ⟨digits, rfl, -⟩)
    · exact h
    · exact absurd rfl (hplus digits)

theorem ofHead?_eq_some {cs : List Char} {c : CollectionId} : ofHead? cs = some c ↔
    ∃ number, cs = "col=".toList ++ number ∧ WritesSigned number c.val ∧ c.val < 2 ^ 32 := by
  have hcol : "col=".toList = ['c', 'o', 'l', '='] := rfl
  simp only [hcol, List.cons_append, List.nil_append]
  unfold ofHead?
  split
  · rename_i number
    simp only [Option.bind_eq_some_iff, ofSigned?_eq_some, Option.ite_none_right_eq_some, Option.some.injEq]
    constructor
    · rintro ⟨n, hn, hbound, rfl⟩
      exact ⟨number, rfl, hn, hbound⟩
    · rintro ⟨_, ⟨⟩, hn, hbound⟩
      exact ⟨c.val, hn, hbound, rfl⟩
  · rename_i hother
    refine ⟨fun h => (by cases h), ?_⟩
    rintro ⟨number, hcs, -⟩
    exact absurd hcs (hother number)

theorem ofTag_eq_ok {tag : String} {c : CollectionId} : ofTag tag = .ok c ↔ Names tag c := by
  unfold Names
  simp only [isHead_iff]
  rw [← ofHead?_eq_some, ofTag]
  cases h : ofHead? (head tag.toList) <;> simp

/-! ## Written tags -/

theorem writes_padded (zeros n : Nat) : Writes (List.replicate zeros '0' ++ Nat.toDigits 10 n) n := by
  refine ⟨List.append_ne_nil_of_right_ne_nil _ Nat.toDigits_ne_nil, fun d hd => ?_, ?_⟩
  · rcases List.mem_append.1 hd with hd | hd
    · rw [List.eq_of_mem_replicate hd]
      rfl
    · exact Nat.isDigit_of_mem_toDigits (by decide) (by decide) hd
  · rw [Nat.ofDigitChars_append, Nat.ofDigitChars_replicate_zero, Nat.mul_zero, Nat.ofDigitChars_ten_toDigits]

theorem toList_padded (zeros : Nat) (c : CollectionId) : (padded zeros c).toList =
    "col=".toList ++ (List.replicate zeros '0' ++ Nat.toDigits 10 c.val) := by
  change ("col=" ++ String.ofList (List.replicate zeros '0') ++ Nat.repr c.val).toList = _
  rw [String.toList_append, String.toList_append, String.toList_ofList (l := List.replicate zeros '0'),
    Nat.toList_repr, List.append_assoc]

/-- **Zeros in front change nothing**, and neither does what follows behind a bar. -/
theorem names_padded (zeros : Nat) {c : CollectionId} (hc : c.val < 2 ^ 32) {tag : String}
    (h : tag = padded zeros c ∨ ∃ rest, tag = padded zeros c ++ "|" ++ rest) : Names tag c := by
  have hwrites := writes_padded zeros c.val
  refine ⟨_, ⟨fun hbar => ?_, ?_⟩, Or.inl hwrites, hc⟩
  · rcases List.mem_append.1 hbar with hbar | hbar
    · exact absurd hbar (by decide)
    · exact absurd (hwrites.2.1 '|' hbar) (by decide)
  · rw [← toList_padded]
    rcases h with rfl | ⟨rest, rfl⟩
    · exact Or.inl rfl
    · refine Or.inr ⟨rest.toList, ?_⟩
      rw [String.toList_append, String.toList_append, List.append_assoc]
      rfl

/-- **Tags are read by their grammar.**  A tag is read exactly if it names a collection, and else it is refused as a
whole; a collection is named by its digits behind any number of zeros, whatever follows behind a bar. -/
theorem ofTag_grammar :
    (∀ tag c, ofTag tag = .ok c ↔ Names tag c) ∧
    (∀ tag f, ofTag tag = .error f ↔ f = .malformedTag tag ∧ ¬∃ c, Names tag c) ∧
    ∀ (zeros : Nat) (c : CollectionId), c.val < 2 ^ 32 → ofTag (padded zeros c) = .ok c ∧
      ∀ rest, ofTag (padded zeros c ++ "|" ++ rest) = .ok c := by
  refine ⟨fun tag c => ofTag_eq_ok, fun tag f => ?_, fun zeros c hc => ⟨?_, fun rest => ?_⟩⟩
  · simp only [← ofTag_eq_ok]
    unfold ofTag
    cases ofHead? (head tag.toList) <;> simp [eq_comm]
  · exact ofTag_eq_ok.2 (names_padded zeros hc (Or.inl rfl))
  · exact ofTag_eq_ok.2 (names_padded zeros hc (Or.inr ⟨rest, rfl⟩))

theorem ofTag_grammar_largest : 4294967295 < 2 ^ 32 ∧
    ofTag (padded 3 ⟨4294967295⟩) = .ok ⟨4294967295⟩ ∧
    ofTag (padded 3 ⟨4294967295⟩ ++ "|" ++ "col=7") = .ok ⟨4294967295⟩ ∧
    Names "col=+0007|col=1" ⟨7⟩ ∧ ¬(∃ c, Names "col=4294967296" c) ∧ ¬∃ c, Names "col=+|col=1" c := by
  have bound : 4294967295 < 2 ^ 32 := by decide
  obtain ⟨read, refused, padded⟩ := ofTag_grammar
  obtain ⟨alone, followed⟩ := padded 3 ⟨4294967295⟩ bound
  refine ⟨bound, alone, followed "col=7", (read _ _).1 (by decide +kernel), ?_, ?_⟩
  · exact ((refused _ (.malformedTag "col=4294967296")).1 (by decide +kernel)).2
  · exact ((refused _ (.malformedTag "col=+|col=1")).1 (by decide +kernel)).2

end CollectionId
end SeismicHazard
