import SeismicHazard.Proofs.Outcome
import SeismicHazard.Proofs.Source.Soundness
/-!
# Refusal — which source keeps a group from being refilled

Sources that are to replace those of a group are tested in order, and the first that does not fit is the one that is
named (`fault?_eq_some`).  The tests come before anything is written, so a group that refuses its sources is left as it
was (`run_replaceInPlace`).
-/
namespace SeismicHazard
namespace SourceGroup

variable {S : Type} [Source S]

/-! ## The first source that does not fit -/

/-- Sources that fit into a group: they have its tectonic region type, and their identifiers differ. -/
def Fits (g : SourceGroup S) (sources : List S) : Prop :=
  (∀ s ∈ sources, Source.trt s = g.trt) ∧ (sources.map Source.id).Nodup

/-- Why a group refuses some sources: those before one fit, and that one has another tectonic region type or else the
identifier of one before it. -/
inductive Refuses (g : SourceGroup S) (sources : List S) : Failure → Prop where
  | foreign {before after : List S} {s : S} (hsplit : sources = before ++ s :: after) (hbefore : g.Fits before)
    (htrt : Source.trt s ≠ g.trt) : Refuses g sources (.foreignTrt g.trt (Source.trt s) (Source.id s))
  | repeated {before after : List S} {s : S} (hsplit : sources = before ++ s :: after) (hbefore : g.Fits before)
    (htrt : Source.trt s = g.trt) (hid : Source.id s ∈ before.map Source.id) :
    Refuses g sources (.repeatedId (Source.id s) s!"group {g.id}")

theorem fault?_nil_eq_none {g : SourceGroup S} {sources : List S} : g.fault? [] sources = none ↔ g.Fits sources :=
  accepts_iff_fault?.symm.trans accepts_iff

theorem fault?_append (g : SourceGroup S) : ∀ (l r : List S) (seen : List String), g.fault? seen (l ++ r) =
    (g.fault? seen l).or (g.fault? ((l.map Source.id).reverse ++ seen) r)
  | [], _, _ => rfl
  | s :: l, r, seen => by
    rw [List.cons_append, fault?, fault?, fault?_append g l r, List.map_cons, List.reverse_cons, List.append_assoc]
    split
    · rfl
    · split <;> rfl

theorem exists_split_of_fault? {g : SourceGroup S} {f : Failure} : ∀ {sources : List S} {seen : List String},
    g.fault? seen sources = some f → ∃ before s after, sources = before ++ s :: after ∧
      g.fault? seen before = none ∧ g.fault? seen (before ++ [s]) = some f
  | [], _, h => by cases h
  | s :: sources, seen, h => by
    rw [← List.singleton_append, fault?_append] at h
    cases hs : g.fault? seen [s] with
    | some f' =>
      rw [hs, Option.some_or] at h
      exact ⟨[], s, sources, rfl, rfl, hs.trans h⟩
    | none =>
      rw [hs, Option.none_or] at h
      obtain ⟨before, s', after, rfl, hbefore, hs'⟩ := exists_split_of_fault? h
      refine ⟨s :: before, s', after, rfl, ?_, ?_⟩
      · rw [← List.singleton_append, fault?_append, hs, Option.none_or]
        exact hbefore
      · rw [List.cons_append, ← List.singleton_append, fault?_append, hs, Option.none_or]
        exact hs'

theorem fault?_behind {g : SourceGroup S} {before : List S} (hbefore : g.Fits before) (s : S) (after : List S) :
    g.fault? [] (before ++ s :: after) =
      if Source.trt s ≠ g.trt then some (g.foreign s)
      else if Source.id s ∈ before.map Source.id then some (.repeatedId (Source.id s) s!"group {g.id}")
      else g.fault? (Source.id s :: (before.map Source.id).reverse) after := by
  rw [fault?_append, fault?_nil_eq_none.2 hbefore, Option.none_or, List.append_nil, fault?]
  simp only [List.mem_reverse]

theorem fault?_eq_some {g : SourceGroup S} {sources : List S} {f : Failure} :
    g.fault? [] sources = some f ↔ g.Refuses sources f := by
  constructor
  · intro h
    obtain ⟨before, s, after, hsplit, hbefore, hs⟩ := exists_split_of_fault? h
    rw [fault?_nil_eq_none] at hbefore
    rw [fault?_behind hbefore] at hs
    split at hs
    · cases hs
      exact .foreign hsplit hbefore ‹_›
    · rename_i htrt
      split at hs
      · cases hs
        exact .repeated hsplit hbefore (not_not.1 htrt) ‹_›
      · cases hs
  · intro h
    cases h with
    | foreign hsplit hbefore htrt =>
      rw [hsplit, fault?_behind hbefore, if_pos htrt]
      rfl
    | repeated hsplit hbefore htrt hid =>
      rw [hsplit, fault?_behind hbefore, if_neg (not_not_intro htrt), if_pos hid]

/-! ## In place -/

def widen (g : SourceGroup S) (s : S) : SourceGroup S :=
  { g with
    minMag := keepWith lesserMag g.minMag (Source.magnitudes s).1
    maxMag := keepWith greaterMag g.maxMag (Source.magnitudes s).2 }

/-- A step that may fail and writes to a group.  What was written before a failure stays written. -/
abbrev Writing (S α : Type) : Type := ExceptT Failure (StateM (SourceGroup S)) α

/-- Empties the magnitude range, widens it by one source after the other and puts the sources in place of the old ones,
which are given back. -/
def exchange (sources : List S) : Writing S (List S) := do
  modify fun g => { g with minMag := none, maxMag := none }
  forM sources fun s => modify fun g => g.widen s
  let g ← get
  set { g with sources }
  return g.sources

/-- **Replaces the sources of a group in place**, after they were tested. -/
def replaceInPlace (sources : List S) : Writing S (List S) := do
  let g ← get
  liftExcept (g.checkReplacement sources)
  exchange sources

omit [Source S] in
theorem run_bind {α β : Type} (x : Writing S α) (next : α → Writing S β) (g : SourceGroup S) :
    (x >>= next).run.run g = match x.run.run g with
      | (.ok a, g') => (next a).run.run g'
      | (.error f, g') => (.error f, g') := by
  rw [ExceptT.run_bind, StateT.run_bind]
  rcases x.run.run g with ⟨_ | _, _⟩ <;> rfl

theorem foldl_widen : ∀ (sources : List S) (g : SourceGroup S), sources.foldl widen g =
    { g with
      minMag := (sources.map (fun s => (Source.magnitudes s).1)).foldl (keepWith lesserMag) g.minMag
      maxMag := (sources.map (fun s => (Source.magnitudes s).2)).foldl (keepWith greaterMag) g.maxMag }
  | [], _ => rfl
  | s :: sources, g => foldl_widen sources (g.widen s)

theorem run_forM_widen : ∀ (sources : List S) (g : SourceGroup S),
    (forM sources (fun s => modify fun g => g.widen s) : Writing S PUnit).run.run g = (.ok (), sources.foldl widen g)
  | [], _ => rfl
  | s :: sources, g => run_forM_widen sources (g.widen s)

theorem setSources_eq (g : SourceGroup S) (sources : List S) : g.setSources sources = { g with
    sources
    minMag := (sources.map (fun s => (Source.magnitudes s).1)).foldl (keepWith lesserMag) none
    maxMag := (sources.map (fun s => (Source.magnitudes s).2)).foldl (keepWith greaterMag) none } := by
  rw [← minMag_setSources g, ← maxMag_setSources g]
  rfl

theorem run_exchange (g : SourceGroup S) (sources : List S) :
    (exchange sources).run.run g = (.ok g.sources, g.setSources sources) := by
  unfold exchange
  rw [run_bind]
  -- the first write gives the group that the others start from
  change (forM sources (fun s => modify fun g => g.widen s) >>= _ : Writing S (List S)).run.run
    { g with minMag := none, maxMag := none } = _
  rw [run_bind, run_forM_widen, foldl_widen, setSources_eq]
  rfl

theorem run_replaceInPlace (g : SourceGroup S) (sources : List S) : (replaceInPlace sources).run.run g =
    match g.replaceSources sources with
    | .ok (old, g') => (.ok old, g')
    | .error f => (.error f, g) := by
  change (liftExcept (g.checkReplacement sources) >>= fun _ => exchange sources : Writing S (List S)).run.run g = _
  unfold replaceSources
  cases g.checkReplacement sources with
  | error f => rfl
  | ok _ => exact run_exchange g sources

/-! ## Replacing -/

structure Settles (g : SourceGroup S) (sources : List S) : Prop where
  /-- The new sources are accepted exactly if they fit. -/
  accepted : (∃ r, g.replaceSources sources = .ok r) ↔ g.Fits sources
  /-- Then the old ones are given back, and nothing else but the magnitude range changes. -/
  replaced : ∀ old g', g.replaceSources sources = .ok (old, g') → old = g.sources ∧ g'.sources = sources ∧
    g'.id = g.id ∧ g'.trt = g.trt ∧ g'.gsims = g.gsims ∧ g'.ruptures = g.ruptures
  /-- Else the first source that does not fit is named. -/
  refused : ∀ f, g.replaceSources sources = .error f ↔ g.Refuses sources f
  /-- In place, the group becomes the one with the new sources, -/
  written : ∀ old g', g.replaceSources sources = .ok (old, g') →
    (replaceInPlace sources).run.run g = (.ok old, g')
  /-- or is left as it was. -/
  kept : ∀ f, g.replaceSources sources = .error f → (replaceInPlace sources).run.run g = (.error f, g)

theorem replaceSources_eq_error {g : SourceGroup S} {sources : List S} {f : Failure} :
    g.replaceSources sources = .error f ↔ g.Refuses sources f := by
  rw [← fault?_eq_some, replaceSources, checkReplacement]
  cases g.fault? [] sources <;> simp [Except.map]

theorem replaceSources_eq_ok {g : SourceGroup S} {sources : List S} {r : List S × SourceGroup S} :
    g.replaceSources sources = .ok r ↔ g.Fits sources ∧ r = (g.sources, g.setSources sources) := by
  rw [← fault?_nil_eq_none, replaceSources, checkReplacement]
  cases g.fault? [] sources <;> simp [Except.map, eq_comm]

/-- **Replacing is all or nothing.**  A group takes the sources that fit into it, or names the first that does not and
stays as it was. -/
theorem replaceSources_settled (g : SourceGroup S) (sources : List S) : g.Settles sources := by
  constructor
  case accepted =>
    simp only [replaceSources_eq_ok]
    exact ⟨fun ⟨_, hfits, _⟩ => hfits, fun hfits => ⟨_, hfits, rfl⟩⟩
  case replaced =>
    intro old g' h
    cases (replaceSources_eq_ok.1 h).2
    exact ⟨rfl, rfl, rfl, rfl, rfl, rfl⟩
  case refused => exact fun f => replaceSources_eq_error
  case written =>
    intro old g' h
    rw [run_replaceInPlace, h]
  case kept =>
    intro f h
    rw [run_replaceInPlace, h]

/-- Two sources with one identifier, with a foreign one between them or behind them. -/
def twoFaults (behind : Bool) : List Strip :=
  let a : Strip := { id := "a", trt := "A" }
  let b : Strip := { id := "b", trt := "B" }
  if behind then [a, a, b] else [a, b, a]

theorem replaceSources_settled_twoFaults : ∃ g : SourceGroup Strip, g.minMag = some 4 ∧ g.ruptures = 9 ∧
    g.Refuses (twoFaults false) (.foreignTrt "A" "B" "b") ∧
    g.Refuses (twoFaults true) (.repeatedId "a" "group 7") ∧ g.Fits ((twoFaults true).take 1) ∧
    ∀ behind, ∃ f, (replaceInPlace (twoFaults behind)).run.run g = (.error f, g) := by
  let g : SourceGroup Strip := { id := ⟨7⟩, trt := "A", ruptures := 9, minMag := some 4 }
  have foreign : g.replaceSources (twoFaults false) = .error (.foreignTrt "A" "B" "b") := rfl
  have scope : s!"group {g.id}" = "group 7" := by decide +kernel
  have repeated : g.replaceSources (twoFaults true) = .error (.repeatedId "a" "group 7") := by
    rw [← scope]
    rfl
  refine ⟨g, rfl, rfl, (replaceSources_settled g _).refused _ |>.1 foreign,
    (replaceSources_settled g _).refused _ |>.1 repeated,
    (replaceSources_settled g _).accepted.1 ⟨_, rfl⟩, fun behind => ?_⟩
  cases behind with
  | false => exact ⟨_, (replaceSources_settled g _).kept _ foreign⟩
  | true => exact ⟨_, (replaceSources_settled g _).kept _ repeated⟩

end SourceGroup
end SeismicHazard
