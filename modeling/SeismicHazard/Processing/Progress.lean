/-!
# Progress — how far the work gets when tasks fail

Tasks that run one after the other stop at the first failure.  Tasks that are shared out are halved while splits are
left, and the shares run on their own.  A failure that halts the work keeps every share that has not begun from being
run.  After any other failure the work goes on: only the rest of the share is lost, and the share that was to follow is
handed over anew, which gives it new splits.

Main statement: if no task fails, all of them are completed (`inTurn_of_ok`, `sharedOut_of_ok`).
-/
namespace SeismicHazard

structure Progress (β ε : Type) where
  done : List β := []
  failures : List ε := []

namespace Progress

variable {α β ε : Type}

def append (p q : Progress β ε) : Progress β ε := ⟨p.done ++ q.done, p.failures ++ q.failures⟩

def cons (b : β) (p : Progress β ε) : Progress β ε := { p with done := b :: p.done }

def inTurn (f : α → Except ε β) : List α → Progress β ε
  | [] => {}
  | a :: as =>
    match f a with
    | .ok b => (inTurn f as).cons b
    | .error e => { failures := [e] }

/-- The splits that are left to the halves of a share, if it may be split.  Every split halves them; a share that was
handed over has at least as many as there are threads. -/
def splitsLeft (threads splits : Nat) (handedOver : Bool) : Option Nat :=
  if handedOver then some (max threads (splits / 2)) else if 0 < splits then some (splits / 2) else none

/-- The tasks of a share, given the number of threads, which failures halt the work, the splits of the share and whether
it was handed over.  The first number bounds how often a share is halved; the length of the share is enough. -/
def shared (threads : Nat) (halts : ε → Bool) (f : α → Except ε β) : Nat → Nat → Bool → List α → Progress β ε
  | 0, _, _, l => inTurn f l
  | depth + 1, splits, handedOver, l =>
    match splitsLeft threads splits handedOver with
    | none => inTurn f l
    | some splits =>
      if l.length ≤ 1 then inTurn f l
      else
        let left := shared threads halts f depth splits false (l.take (l.length / 2))
        if left.failures.any halts then left
        else left.append (shared threads halts f depth splits (!left.failures.isEmpty) (l.drop (l.length / 2)))

/-- The tasks shared out among a number of threads, given which failures halt the work. -/
def sharedOut (threads : Nat) (halts : ε → Bool) (f : α → Except ε β) (l : List α) : Progress β ε :=
  shared threads halts f l.length threads false l

/-! ## Without failures -/

theorem inTurn_of_ok (f : α → Except ε β) (g : α → β) :
    ∀ l : List α, (∀ a ∈ l, f a = .ok (g a)) → inTurn f l = ⟨l.map g, []⟩
  | [], _ => rfl
  | a :: as, h => by
    have ha : f a = .ok (g a) := h a (by simp)
    have ih := inTurn_of_ok f g as (fun x hx => h x (by simp [hx]))
    simp [inTurn, ha, ih, cons]

theorem shared_of_ok (threads : Nat) (halts : ε → Bool) (f : α → Except ε β) (g : α → β) :
    ∀ (depth splits : Nat) (handedOver : Bool) (l : List α), (∀ a ∈ l, f a = .ok (g a)) →
      shared threads halts f depth splits handedOver l = ⟨l.map g, []⟩
  | 0, _, _, l, h => inTurn_of_ok f g l h
  | depth + 1, splits, handedOver, l, h => by
    have left := fun s => shared_of_ok threads halts f g depth s false (l.take (l.length / 2))
      (fun a ha => h a (List.mem_of_mem_take ha))
    have right := fun s => shared_of_ok threads halts f g depth s false (l.drop (l.length / 2))
      (fun a ha => h a (List.mem_of_mem_drop ha))
    simp only [shared]
    split
    · exact inTurn_of_ok f g l h
    · split
      · exact inTurn_of_ok f g l h
      · simp [left, right, append, List.take_append_drop]

theorem sharedOut_of_ok (threads : Nat) (halts : ε → Bool) (f : α → Except ε β) (g : α → β) (l : List α)
    (h : ∀ a ∈ l, f a = .ok (g a)) : sharedOut threads halts f l = ⟨l.map g, []⟩ :=
  shared_of_ok threads halts f g l.length threads false l h

end Progress

end SeismicHazard
