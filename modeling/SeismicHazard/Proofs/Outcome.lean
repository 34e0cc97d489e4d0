import SeismicHazard.Failure
import Mathlib.Data.List.Forall2
/-!
# Outcomes — how computations that may end early come to a value

A chain of steps comes to a value when each of its steps does (`bind_eq_ok`), and so does a step taken for every member
of a list (`forall₂_of_mapM`, `exists_mapM`, `exists_foldlM`).  If no step breaks down, neither does their
fold (`EndsAs.foldlM`).  If the faults of every step are known beforehand, a fold ends with the first of them all
(`Meets.foldlM`).  Nobody opens `Except` after this.
-/
namespace SeismicHazard
namespace Outcome

variable {α β ε : Type}

theorem bind_eq_ok {x : Except ε α} {f : α → Except ε β} {b : β} :
    (x >>= f) = .ok b ↔ ∃ a, x = .ok a ∧ f a = .ok b := by
  cases x with
  | error e =>
    constructor
    · intro h
      cases h
    · rintro ⟨a, ha, -⟩
      cases ha
  | ok a =>
    constructor
    · exact fun h => ⟨a, rfl, h⟩
    · rintro ⟨a, ⟨⟩, h⟩
      exact h

theorem map_eq_ok {x : Except ε α} {f : α → β} {b : β} : x.map f = .ok b ↔ ∃ a, x = .ok a ∧ f a = b := by
  cases x with
  | error e =>
    constructor
    · intro h
      cases h
    · rintro ⟨a, ha, -⟩
      cases ha
  | ok a =>
    constructor
    · rintro ⟨⟩
      exact ⟨a, rfl, rfl⟩
    · rintro ⟨a, ⟨⟩, rfl⟩
      rfl

theorem map_toOption_eq_some {x : Except ε α} {f : α → β} {b : β} :
    x.toOption.map f = some b ↔ ∃ a, x = .ok a ∧ f a = b := by
  cases x with
  | error e =>
    constructor
    · intro h
      cases h
    · rintro ⟨a, ha, -⟩
      cases ha
  | ok a =>
    constructor
    · rintro ⟨⟩
      exact ⟨a, rfl, rfl⟩
    · rintro ⟨a, ⟨⟩, rfl⟩
      rfl

theorem bind_toOption_eq_some {x : Except ε α} {f : α → Option β} {b : β} :
    x.toOption.bind f = some b ↔ ∃ a, x = .ok a ∧ f a = some b := by
  cases x <;> simp [Except.toOption]

theorem lift_eq_ok {x : Except Failure α} {a : α} : Abort.lift x = .ok a ↔ x = .ok a := by
  cases x with
  | error e => constructor <;> (intro h; cases h)
  | ok b => constructor <;> (rintro ⟨⟩; rfl)

theorem isOk_iff {x : Except ε α} : x.isOk = true ↔ ∃ a, x = .ok a := by
  cases x with
  | error e =>
    constructor
    · intro h
      cases h
    · rintro ⟨a, ha⟩
      cases ha
  | ok a => exact ⟨fun _ => ⟨a, rfl⟩, fun _ => rfl⟩

theorem forall₂_of_mapM {f : α → Except ε β} : ∀ {l : List α} {r : List β}, l.mapM f = .ok r →
    List.Forall₂ (fun a b => f a = .ok b) l r
  | [], r, h => by
    cases h
    exact .nil
  | a :: l, r, h => by
    rw [List.mapM_cons] at h
    obtain ⟨b, hb, h⟩ := bind_eq_ok.1 h
    obtain ⟨bs, hbs, h⟩ := bind_eq_ok.1 h
    cases h
    exact .cons hb (forall₂_of_mapM hbs)

theorem mapM_of_forall₂ {f : α → Except ε β} : ∀ {l : List α} {r : List β},
    List.Forall₂ (fun a b => f a = .ok b) l r → l.mapM f = .ok r
  | _, _, .nil => rfl
  | _, _, .cons h hs => by
    rw [List.mapM_cons, h, mapM_of_forall₂ hs]
    rfl

theorem exists_mapM {f : α → Except ε β} : ∀ {l : List α}, (∀ a ∈ l, (f a).isOk = true) → ∃ r, l.mapM f = .ok r
  | [], _ => ⟨[], rfl⟩
  | a :: l, h => by
    obtain ⟨b, hb⟩ := isOk_iff.1 (h a (List.mem_cons_self ..))
    obtain ⟨r, hr⟩ := exists_mapM fun a' ha' => h a' (List.mem_cons_of_mem _ ha')
    refine ⟨b :: r, ?_⟩
    rw [List.mapM_cons, hb, hr]
    rfl

theorem exists_foldlM {f : β → α → Except ε β} : ∀ {l : List α}, (∀ a ∈ l, ∀ b, ∃ b', f b a = .ok b') →
    ∀ b, ∃ r, l.foldlM f b = .ok r
  | [], _, b => ⟨b, rfl⟩
  | a :: l, h, b => by
    obtain ⟨b', hb'⟩ := h a (List.mem_cons_self ..) b
    obtain ⟨r, hr⟩ := exists_foldlM (fun a' ha' => h a' (List.mem_cons_of_mem _ ha')) b'
    refine ⟨r, ?_⟩
    rw [List.foldlM_cons, hb']
    exact hr

theorem foldlM_invariant {P : β → Prop} {f : β → α → Except ε β} (step : ∀ b a b', P b → f b a = .ok b' → P b') :
    ∀ {l : List α} {b r : β}, P b → l.foldlM f b = .ok r → P r
  | [], _, _, hb, h => by
    cases h
    exact hb
  | a :: l, b, _, hb, h => by
    rw [List.foldlM_cons] at h
    obtain ⟨b', hb', h⟩ := bind_eq_ok.1 h
    exact foldlM_invariant step (step b a b' hb hb') h

/-! ## Break-downs that do not happen -/

/-- A computation that may break down ends as one that can only fail does: with the same failure, or with the same
value, which then has a property. -/
def EndsAs (P : β → Prop) (x : Except Abort β) (y : Except Failure β) : Prop :=
  x = Abort.lift y ∧ ∀ b, y = .ok b → P b

theorem endsAs_ok {P : β → Prop} {x : Except Abort β} {b : β} (hx : x = .ok b) (hb : P b) : EndsAs P x (.ok b) := by
  refine ⟨hx, ?_⟩
  rintro _ ⟨⟩
  exact hb

/-- **A fold breaks down only if one of its steps does**, from a value that the fold comes to. -/
theorem EndsAs.foldlM {P : β → Prop} {f : β → α → Except Abort β} {g : β → α → Except Failure β} :
    ∀ {l : List α}, (∀ b, P b → ∀ a ∈ l, EndsAs P (f b a) (g b a)) → ∀ {b : β}, P b →
    EndsAs P (l.foldlM f b) (l.foldlM g b)
  | [], _, _, hb => endsAs_ok rfl hb
  | a :: l, h, b, hb => by
    obtain ⟨hstep, hkeep⟩ := h b hb a (List.mem_cons_self ..)
    rw [List.foldlM_cons, List.foldlM_cons, hstep]
    cases hg : g b a with
    | error e =>
      refine ⟨rfl, ?_⟩
      rintro _ ⟨⟩
    | ok b' => exact EndsAs.foldlM (fun b hb a ha => h b hb a (List.mem_cons_of_mem _ ha)) (hkeep b' hg)

/-- **A fold breaks down only if one of its steps does**, and else comes to what the steps make of the start. -/
theorem EndsAs.foldl {P : β → Prop} {f : β → α → Except Abort β} {g : β → α → β} {l : List α}
    (step : ∀ b, P b → ∀ a ∈ l, EndsAs P (f b a) (.ok (g b a))) {b : β} (hb : P b) :
    EndsAs P (l.foldlM f b) (.ok (l.foldl g b)) := by
  have hpure : l.foldlM (fun b a => (.ok (g b a) : Except Failure β)) b = .ok (l.foldl g b) := List.foldlM_pure
  exact hpure ▸ EndsAs.foldlM step hb

/-! ## Faults that are known beforehand -/

/-- A computation ends with the first of some faults or, without any, comes to a value with a property. -/
def Meets (faults : List ε) (P : β → Prop) (x : Except ε β) : Prop :=
  match faults with
  | [] => ∃ b, x = .ok b ∧ P b
  | e :: _ => x = .error e

variable {faults faults' : List ε} {P : β → Prop} {x : Except ε β}

theorem Meets.bind {R : α → Prop} {x : Except ε α} {f : α → Except ε β} (h : Meets faults R x)
    (hf : ∀ a, R a → Meets faults' P (f a)) : Meets (faults ++ faults') P (x >>= f) := by
  cases faults with
  | nil =>
    obtain ⟨a, rfl, ha⟩ := h
    exact hf a ha
  | cons e es =>
    obtain rfl : x = .error e := h
    exact rfl

theorem Meets.map {R : α → Prop} {x : Except ε α} {f : α → β} (h : Meets faults R x) (hf : ∀ a, R a → P (f a)) :
    Meets faults P (x.map f) := by
  cases faults with
  | nil =>
    obtain ⟨a, rfl, ha⟩ := h
    exact ⟨f a, rfl, hf a ha⟩
  | cons e es =>
    obtain rfl : x = .error e := h
    exact rfl

/-- **A fold ends with the first fault of its steps**, in order, whatever values they come to. -/
theorem Meets.foldlM {f : β → α → Except ε β} {faults : α → List ε} (step : ∀ b a, P b → Meets (faults a) P (f b a)) :
    ∀ (l : List α) {b : β}, P b → Meets (l.flatMap faults) P (l.foldlM f b)
  | [], b, hb => ⟨b, rfl, hb⟩
  | a :: l, b, hb => by
    rw [List.foldlM_cons, List.flatMap_cons]
    exact (step b a hb).bind fun b' hb' => Meets.foldlM step l hb'

theorem Meets.eq_ok {b : β} (h : Meets faults (· = b) x) (hnone : faults = []) : x = .ok b := by
  subst hnone
  obtain ⟨_, rfl, rfl⟩ := h
  rfl

theorem Meets.eq_of_ok {b b' : β} (h : Meets faults (· = b) x) (hx : x = .ok b') : b' = b := by
  subst hx
  cases faults with
  | nil =>
    obtain ⟨_, ⟨⟩, hb⟩ := h
    exact hb
  | cons e es => cases h

theorem Meets.eq_error_iff (h : Meets faults P x) {e : ε} : x = .error e ↔ faults.head? = some e := by
  cases faults with
  | nil =>
    obtain ⟨b, rfl, -⟩ := h
    simp
  | cons e' es =>
    obtain rfl : x = .error e' := h
    simp

theorem Meets.exists_error_iff (h : Meets faults P x) : (∃ e, x = .error e) ↔ ∃ e, e ∈ faults := by
  simp only [h.eq_error_iff]
  cases faults <;> simp

end Outcome
end SeismicHazard
