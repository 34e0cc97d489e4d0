import SeismicHazard.Proofs.Composite.Branches
import Mathlib.Data.String.Basic
/-!
# Acceptance — which branches make a composite, and what it then holds

Branches are refused for the numbers of their draws first, all together, and then for the first branch at fault.  A
branch is at fault because it is never drawn, because of its weight or because of an identifier that two of its sources
have, in this order (`fault?_eq_some`); putting its sources into groups is never a reason (`buildModels_eq_error`).  The
models of branches that are accepted keep what is said in the branches, and share out their sources by tectonic region
type: every type that occurs has one group, which holds all its sources in the order of the branch (`fills_toModel`).
-/
namespace SeismicHazard

variable {S W : Type}

/-! ## Groups in order -/

namespace SourceGroup

theorem le_iff {g h : SourceGroup S} : g.le h = true ↔ g.size < h.size ∨ g.size = h.size ∧ g.trt ≤ h.trt := by
  rw [le, order, Ordering.isLE_then_iff_or, Nat.compare_eq_lt, Nat.compare_eq_eq,
    Ordering.isLE_iff_ne_gt, ← compare_le_iff_le, ne_eq]

theorem le_trans (g h k : SourceGroup S) (hgh : g.le h = true) (hhk : h.le k = true) : g.le k = true := by
  rw [le_iff] at hgh hhk ⊢
  rcases hgh with hgh | ⟨hgh, htrt⟩
  · omega
  · rcases hhk with hhk | ⟨hhk, htrt'⟩
    · omega
    · exact Or.inr ⟨hgh.trans hhk, htrt.trans htrt'⟩

theorem le_connected (g h : SourceGroup S) : (g.le h || h.le g) = true := by
  rw [Bool.or_eq_true, le_iff, le_iff]
  rcases Nat.lt_trichotomy g.size h.size with hlt | heq | hgt
  · exact Or.inl (Or.inl hlt)
  · rcases le_total g.trt h.trt with hle | hle
    · exact Or.inl (Or.inr ⟨heq, hle⟩)
    · exact Or.inr (Or.inr ⟨heq.symm, hle⟩)
  · exact Or.inr (Or.inl hgt)

/-- Groups are in order if fewer sources come first, then the lesser tectonic region type. -/
def Ordered (gs : List (SourceGroup S)) : Prop :=
  gs.Pairwise (fun g h => g.size < h.size ∨ g.size = h.size ∧ g.trt < h.trt)

/-- **Sorting puts groups in order** that have tectonic region types of their own. -/
theorem ordered_sortBy {gs : List (SourceGroup S)} (hn : (gs.map trt).Nodup) :
    Ordered (sortBy le gs) := by
  have hsorted : (sortBy le gs).Pairwise (fun g h => g.le h = true) :=
    sortBy_pairwise le_trans le_connected gs
  have happart : ((sortBy le gs).map trt).Nodup :=
    ((sortBy_perm le gs).map trt).nodup_iff.2 hn
  refine (hsorted.and (List.pairwise_map.1 happart)).imp fun hgh => ?_
  rcases le_iff.1 hgh.1 with hlt | ⟨heq, hle⟩
  · exact Or.inl hlt
  · exact Or.inr ⟨heq, lt_of_le_of_ne hle hgh.2⟩

end SourceGroup

namespace ModelBranch

/-! ## The first fault of a branch -/

/-- **An identifier is repeated if it stands among those before it**, which have no repetition themselves. -/
theorem repeated?_eq_some : ∀ {l seen : List String} {id : String}, seen.Nodup → (repeated? seen l = some id ↔
    ∃ before after, l = before ++ id :: after ∧ (before ++ seen).Nodup ∧ id ∈ before ++ seen)
  | [], seen, id, _ => by simp [repeated?]
  | a :: l, seen, id, hseen => by
    rw [repeated?]
    by_cases ha : a ∈ seen
    · rw [if_pos ha]
      constructor
      · rintro ⟨⟩
        exact ⟨[], l, rfl, hseen, ha⟩
      · rintro ⟨before, after, hl, hnodup, -⟩
        cases before with
        | nil => cases hl; rfl
        | cons x before =>
          cases hl
          exact absurd (List.mem_append_right before ha) (List.nodup_cons.1 hnodup).1
    · rw [if_neg ha, repeated?_eq_some (List.nodup_cons.2 ⟨ha, hseen⟩)]
      -- it does not matter whether the first identifier is counted with those before or with those seen
      have hmiddle : ∀ before, (before ++ a :: seen).Perm (a :: (before ++ seen)) := fun _ => List.perm_middle
      constructor
      · rintro ⟨before, after, rfl, hnodup, hid⟩
        exact ⟨a :: before, after, rfl, (hmiddle before).nodup_iff.1 hnodup, (hmiddle before).mem_iff.1 hid⟩
      · rintro ⟨before, after, hl, hnodup, hid⟩
        cases before with
        | nil =>
          cases hl
          exact absurd hid ha
        | cons x before =>
          cases hl
          exact ⟨before, after, rfl, (hmiddle before).nodup_iff.2 hnodup, (hmiddle before).mem_iff.2 hid⟩

theorem repeated?_sources [Source S] {b : ModelBranch S W} {id : String} : repeated? [] (b.sources.map Source.id) = some id ↔
    ∃ before s after, b.sources = before ++ s :: after ∧ (before.map Source.id).Nodup ∧
      Source.id s ∈ before.map Source.id ∧ Source.id s = id := by
  rw [repeated?_eq_some List.nodup_nil]
  constructor
  · rintro ⟨ids, rest, hsplit, hnodup, hid⟩
    rw [List.append_nil] at hnodup hid
    obtain ⟨before, tail, htail, rfl, hrest⟩ := List.map_eq_append_iff.1 hsplit
    obtain ⟨s, after, rfl, rfl, rfl⟩ := List.map_eq_cons_iff.1 hrest
    exact ⟨before, s, after, htail, hnodup, hid, rfl⟩
  · rintro ⟨before, s, after, hsplit, hnodup, hid, rfl⟩
    refine ⟨before.map Source.id, after.map Source.id, ?_, ?_⟩
    · rw [hsplit, List.map_append, List.map_cons]
    · rw [List.append_nil]
      exact ⟨hnodup, hid⟩

def Weighted [Scalar W] (b : ModelBranch S W) : Prop :=
  Scalar.isFinite b.weight = true ∧ Scalar.isNonneg b.weight = true

/-- A branch that is drawn, with a weight, and sources that differ in their identifiers. -/
structure Faultless [Scalar W] [Source S] (b : ModelBranch S W) : Prop where
  drawn : 1 ≤ b.samples
  weighted : b.Weighted
  distinct : (b.sources.map Source.id).Nodup

/-- **What a branch is refused for**: that it is never drawn, else its weight, else the first source with the identifier
of one before it. -/
inductive Faulty [Scalar W] [Source S] (b : ModelBranch S W) : Failure → Prop where
  | undrawn (hdrawn : b.samples = 0) : Faulty b (.settings (.neverSampled b.name))
  | weight (hdrawn : 1 ≤ b.samples) (hweight : ¬ b.Weighted) :
    Faulty b (.settings (.modelWeight b.name (Scalar.text b.weight)))
  | repeated {before after : List S} {s : S} (hdrawn : 1 ≤ b.samples) (hweight : b.Weighted)
    (hsplit : b.sources = before ++ s :: after) (hbefore : (before.map Source.id).Nodup)
    (hid : Source.id s ∈ before.map Source.id) : Faulty b (.repeatedId (Source.id s) s!"source model {b.name}")

section Faults

variable [Scalar W] {b : ModelBranch S W}

theorem not_weighted : ¬ b.Weighted ↔ (!(Scalar.isFinite b.weight && Scalar.isNonneg b.weight)) = true := by
  rw [Weighted, Bool.not_eq_true', ← Bool.not_eq_true, Bool.and_eq_true]

variable [Source S]

theorem fault?_eq_none : b.fault? = none ↔ b.Faultless := by
  rw [fault?]
  constructor
  · intro h
    split at h
    · cases h
    · rename_i hdrawn
      split at h
      · cases h
      · rename_i hweight
        rw [← not_weighted, not_not] at hweight
        exact ⟨Nat.pos_of_ne_zero hdrawn, hweight, (repeated?_eq_none.1 (Option.map_eq_none_iff.1 h)).1⟩
  · intro h
    rw [if_neg (Nat.ne_of_gt h.drawn), if_neg fun hc => not_weighted.2 hc h.weighted, Option.map_eq_none_iff,
      repeated?_eq_none]
    exact ⟨h.distinct, fun _ _ => List.not_mem_nil⟩

theorem fault?_eq_some {f : Failure} : b.fault? = some f ↔ b.Faulty f := by
  rw [fault?]
  constructor
  · intro h
    split at h
    · cases h
      exact .undrawn ‹_›
    · rename_i hdrawn
      have hdrawn := Nat.pos_of_ne_zero hdrawn
      split at h
      · cases h
        exact .weight hdrawn (not_weighted.2 ‹_›)
      · rename_i hweight
        rw [← not_weighted, not_not] at hweight
        obtain ⟨id, hid, rfl⟩ := Option.map_eq_some_iff.1 h
        obtain ⟨before, s, after, hsplit, hnodup, hmem, rfl⟩ := repeated?_sources.1 hid
        exact .repeated hdrawn hweight hsplit hnodup hmem
  · intro h
    cases h with
    | undrawn hdrawn => rw [if_pos hdrawn]
    | weight hdrawn hweight => rw [if_neg (Nat.ne_of_gt hdrawn), if_pos (not_weighted.1 hweight)]
    | repeated hdrawn hweight hsplit hbefore hid =>
      rw [if_neg (Nat.ne_of_gt hdrawn), if_neg fun hc => not_weighted.2 hc hweight,
        repeated?_sources.2 ⟨_, _, _, hsplit, hbefore, hid, rfl⟩]
      rfl

theorem Faulty.ne_foreignTrt {f : Failure} (h : b.Faulty f) (expected found source : String) :
    f ≠ .foreignTrt expected found source := by
  cases h <;> exact Failure.noConfusion

end Faults

/-! ## The model of a branch -/

theorem mem_number {first : Nat} {gs : List (SourceGroup S)} {g : SourceGroup S} (h : g ∈ number first gs) :
    ∃ g' ∈ gs, g.trt = g'.trt ∧ g.sources = g'.sources := by
  obtain ⟨p, hp, rfl⟩ := List.mem_map.1 h
  exact ⟨p.1, List.fst_mem_of_mem_zipIdx hp, rfl, rfl⟩

theorem ordered_number (first : Nat) {gs : List (SourceGroup S)} (h : SourceGroup.Ordered gs) :
    SourceGroup.Ordered (number first gs) := by
  rw [← List.zipIdx_map_fst 0 gs] at h
  exact List.pairwise_map.2 (List.pairwise_map.1 h)

variable [Source S]

def Peopled (m : SortedMap String (SourceGroup S)) : Prop := ∀ g ∈ m.values, g.sources ≠ []

theorem peopled_enter {m : SortedMap String (SourceGroup S)} (h : Peopled m) (s : S) : Peopled (enter m s) := by
  intro g hg
  obtain ⟨trt, hget⟩ := SortedMap.mem_values.1 hg
  rw [enter, SortedMap.get?_insert] at hget
  split at hget
  · cases hget
    exact List.append_ne_nil_of_right_ne_nil _ (List.cons_ne_nil s [])
  · exact h g (SortedMap.mem_values.2 ⟨trt, hget⟩)

theorem peopled_foldl : ∀ (l : List S) {m : SortedMap String (SourceGroup S)}, Peopled m → Peopled (l.foldl enter m)
  | [], _, h => h
  | s :: l, _, h => peopled_foldl l (peopled_enter h s)

variable {b : ModelBranch S W}

/-- **A group of a branch holds all its sources of one tectonic region type**, and it has some. -/
theorem of_mem_sortedGroups (h : (b.sources.map Source.id).Nodup) {g : SourceGroup S} (hg : g ∈ b.sortedGroups) :
    g.sources = b.sources.filter (fun s => Source.trt s = g.trt) ∧ g.sources ≠ [] := by
  have hmem := (sortBy_perm SourceGroup.le _).mem_iff.1 hg
  refine ⟨?_, peopled_foldl b.sources (fun g hg => absurd hg List.not_mem_nil) g hmem⟩
  obtain ⟨e, he, rfl⟩ := List.mem_map.1 hmem
  have hgathers := gathered_foldl b.sources gathers_empty h e.1
  rw [groupAt_of_mem he] at hgathers
  rw [hgathers.trt_eq]
  exact hgathers.sources_eq

/-- **The groups of a branch are for the tectonic region types of its sources.** -/
theorem mem_trts_sortedGroups (h : (b.sources.map Source.id).Nodup) (trt : String) :
    trt ∈ b.sortedGroups.map SourceGroup.trt ↔ ∃ s ∈ b.sources, Source.trt s = trt := by
  constructor
  · intro hmem
    obtain ⟨g, hg, rfl⟩ := List.mem_map.1 hmem
    obtain ⟨hsources, hne⟩ := of_mem_sortedGroups h hg
    obtain ⟨s, hs⟩ := List.exists_mem_of_ne_nil _ hne
    rw [hsources, List.mem_filter] at hs
    exact ⟨s, hs.1, of_decide_eq_true hs.2⟩
  · rintro ⟨s, hs, rfl⟩
    have hgathers := gathered_foldl b.sources gathers_empty h (Source.trt s)
    -- a source would be missing if there were no group to look up
    have hheld : s ∈ (groupAt (b.sources.foldl enter .empty) (Source.trt s)).sources := by
      rw [hgathers.sources_eq]
      exact List.mem_filter.2 ⟨hs, decide_eq_true rfl⟩
    unfold groupAt at hheld hgathers
    cases hget : (b.sources.foldl enter .empty).get? (Source.trt s) with
    | none =>
      rw [hget] at hheld
      cases hheld
    | some g =>
      rw [hget] at hgathers
      have hvalue : g ∈ (b.sources.foldl enter .empty).values := SortedMap.mem_values.2 ⟨_, hget⟩
      exact List.mem_map.2 ⟨g, (sortBy_perm SourceGroup.le _).mem_iff.2 hvalue, hgathers.trt_eq⟩

/-- The model of a branch: everything that is said in the branch, and its sources by tectonic region type. -/
structure Fills (b : ModelBranch S W) (m : SourceModel S W) : Prop where
  name_eq : m.name = b.name
  weight_eq : m.weight = b.weight
  path_eq : m.path = b.path
  tree_eq : m.tree = b.tree
  samples_eq : m.samples = b.samples
  /-- There are groups for the tectonic region types that occur. -/
  covers : ∀ trt, trt ∈ m.groups.map SourceGroup.trt ↔ ∃ s ∈ b.sources, Source.trt s = trt
  apart : (m.groups.map SourceGroup.trt).Nodup
  /-- A group holds all sources of its tectonic region type, in the order of the branch. -/
  holds : ∀ g ∈ m.groups, g.sources = b.sources.filter (fun s => Source.trt s = g.trt)
  nonempty : ∀ g ∈ m.groups, g.sources ≠ []
  ordered : SourceGroup.Ordered m.groups

theorem fills_toModel (h : (b.sources.map Source.id).Nodup) {ordinal first : Nat} {m : SourceModel S W}
    (hm : b.toModel ordinal first = .ok m) : Fills b m := by
  have hsound := sound_of_toModel h hm
  rw [toModel_eq] at hm
  cases hm
  refine ⟨rfl, rfl, rfl, rfl, rfl, fun trt => ?_, hsound.apart, fun g hg => ?_, fun g hg => ?_, ?_⟩
  · dsimp only
    rw [trts_number]
    exact mem_trts_sortedGroups h trt
  · obtain ⟨g', hg', htrt, hsources⟩ := mem_number hg
    rw [hsources, htrt]
    exact (of_mem_sortedGroups h hg').1
  · obtain ⟨g', hg', -, hsources⟩ := mem_number hg
    rw [hsources]
    exact (of_mem_sortedGroups h hg').2
  · exact ordered_number first (SourceGroup.ordered_sortBy (nodup_trts_values (gathered_foldl b.sources gathers_empty h)))

end ModelBranch

namespace Composite

/-! ## Branches together -/

/-- Branches that are drawn as often as the sampling asks for, given how often they are drawn together: none several times
in an enumeration, and as often as there are samples otherwise. -/
structure DrawsFit (sampling : SamplingSettings) (branches : List (ModelBranch S W)) (draws : Nat) : Prop where
  once : sampling.isSampling = false → ∀ b ∈ branches, b.samples ≤ 1
  total : sampling.isSampling = true → draws = sampling.count

variable [Scalar W] [Source S]

/-- **What branches are refused for**, given how often they are drawn together: the numbers of their draws, else the first
branch at fault. -/
inductive Refused (sampling : SamplingSettings) (branches : List (ModelBranch S W)) (draws : Nat) : Failure → Prop where
  | overdrawn {before after : List (ModelBranch S W)} {b : ModelBranch S W} (henumerated : sampling.isSampling = false)
    (hsplit : branches = before ++ b :: after) (hbefore : ∀ a ∈ before, a.samples ≤ 1) (hb : 1 < b.samples) :
    Refused sampling branches draws (.settings (.sampledInEnumeration b.name b.samples))
  | total (hsampled : sampling.isSampling = true) (hne : draws ≠ sampling.count) :
    Refused sampling branches draws (.settings (.sampleTotal draws sampling.count))
  | branch {before after : List (ModelBranch S W)} {b : ModelBranch S W} {f : Failure}
    (hdraws : DrawsFit sampling branches draws) (hsplit : branches = before ++ b :: after)
    (hbefore : ∀ a ∈ before, a.Faultless) (hb : b.Faulty f) : Refused sampling branches draws f

variable {sampling : SamplingSettings} {branches : List (ModelBranch S W)}

omit [Scalar W] [Source S] in
theorem samplingFault?_eq_none : samplingFault? sampling branches = none ↔
    DrawsFit sampling branches (wordTotal (branches.map ModelBranch.samples)) := by
  unfold samplingFault?
  dsimp only
  split
  · rename_i hsampled
    constructor
    · intro h
      split at h
      · exact ⟨fun henumerated => absurd (hsampled.symm.trans henumerated) Bool.noConfusion, fun _ => ‹_›⟩
      · cases h
    · exact fun h => if_pos (h.total hsampled)
  · rename_i henumerated
    rw [Option.map_eq_none_iff, List.find?_eq_none]
    constructor
    · exact fun h => ⟨fun _ b hb => by simpa using h b hb, fun hsampled => absurd hsampled henumerated⟩
    · exact fun h b hb => by simpa using h.once (Bool.not_eq_true _ ▸ henumerated) b hb

theorem refused_of_samplingFault? {f : Failure} (h : samplingFault? sampling branches = some f) :
    Refused sampling branches (wordTotal (branches.map ModelBranch.samples)) f := by
  unfold samplingFault? at h
  dsimp only at h
  split at h
  · rename_i hsampled
    split at h
    · cases h
    · cases h
      exact .total hsampled ‹_›
  · rename_i henumerated
    obtain ⟨b, hb, rfl⟩ := Option.map_eq_some_iff.1 h
    obtain ⟨hmany, before, after, hsplit, hbefore⟩ := List.find?_eq_some_iff_append.1 hb
    refine .overdrawn (by simpa using henumerated) hsplit (fun a ha => ?_) (of_decide_eq_true hmany)
    simpa using hbefore a ha

theorem buildModels_eq_error : ∀ {branches : List (ModelBranch S W)} {f : Failure},
    branches.findSome? ModelBranch.fault? = some f → ∀ ordinal first, buildModels ordinal first branches = .error f
  | b :: branches, f, h, ordinal, first => by
    rw [List.findSome?_cons] at h
    cases hb : b.fault? with
    | some f' =>
      rw [hb] at h
      cases h
      rw [buildModels, hb]
    | none =>
      rw [hb] at h
      rw [buildModels, hb]
      dsimp only
      rw [ModelBranch.toModel_eq]
      dsimp only [bind, Except.bind]
      rw [buildModels_eq_error h]

theorem exists_buildModels : ∀ {branches : List (ModelBranch S W)}, (∀ b ∈ branches, b.fault? = none) →
    ∀ ordinal first, ∃ ms, buildModels ordinal first branches = .ok ms
  | [], _, _, _ => ⟨[], rfl⟩
  | b :: branches, h, ordinal, first => by
    obtain ⟨m, hm⟩ : ∃ m, b.toModel ordinal first = .ok m := ⟨_, b.toModel_eq ordinal first⟩
    obtain ⟨ms, hms⟩ := exists_buildModels (fun b' hb' => h b' (List.mem_cons_of_mem b hb')) (ordinal + 1)
      (first + m.groups.length)
    exact ⟨m :: ms, buildModels_cons_eq_ok.2 ⟨h b (List.mem_cons_self ..), m, ms, hm, hms, rfl⟩⟩

theorem build_eq_error {f : Failure} : build sampling branches = .error f ↔
    Refused sampling branches (wordTotal (branches.map ModelBranch.samples)) f := by
  constructor
  · intro h
    unfold build at h
    split at h
    · cases h
      exact refused_of_samplingFault? ‹_›
    · rename_i hdraws
      have hdraws := samplingFault?_eq_none.1 hdraws
      cases hfault : branches.findSome? ModelBranch.fault? with
      | none =>
        obtain ⟨ms, hms⟩ := exists_buildModels (List.findSome?_eq_none_iff.1 hfault) 0 1
        rw [hms] at h
        cases h
      | some f' =>
        rw [buildModels_eq_error hfault] at h
        cases h
        obtain ⟨before, b, after, hsplit, hb, hbefore⟩ := List.findSome?_eq_some_iff.1 hfault
        exact .branch hdraws hsplit (fun a ha => ModelBranch.fault?_eq_none.1 (hbefore a ha))
          (ModelBranch.fault?_eq_some.1 hb)
  · intro h
    unfold build
    cases h with
    | @overdrawn before after b henumerated hsplit hbefore hb =>
      have hfind : branches.find? (fun b => decide (1 < b.samples)) = some b :=
        List.find?_eq_some_iff_append.2 ⟨decide_eq_true hb, before, after, hsplit, fun a ha => by
          simpa using hbefore a ha⟩
      rw [samplingFault?, henumerated, if_neg Bool.false_ne_true, hfind]
      rfl
    | total hsampled hne =>
      rw [samplingFault?, if_pos hsampled]
      dsimp only
      rw [if_neg hne]
    | branch hdraws hsplit hbefore hb =>
      have hfault : branches.findSome? ModelBranch.fault? = some f :=
        List.findSome?_eq_some_iff.2 ⟨_, _, _, hsplit, ModelBranch.fault?_eq_some.2 hb, fun a ha =>
          ModelBranch.fault?_eq_none.2 (hbefore a ha)⟩
      rw [samplingFault?_eq_none.2 hdraws]
      dsimp only
      rw [buildModels_eq_error hfault]
      rfl

/-! ## What is built -/

/-- Branches that a composite can be built from, given how often they are drawn together. -/
structure Accepted (sampling : SamplingSettings) (branches : List (ModelBranch S W)) (draws : Nat) : Prop where
  once : sampling.isSampling = false → ∀ b ∈ branches, b.samples = 1
  drawn : sampling.isSampling = true → (∀ b ∈ branches, 1 ≤ b.samples) ∧ draws = sampling.count
  weighted : ∀ b ∈ branches, b.Weighted
  distinct : ∀ b ∈ branches, (b.sources.map Source.id).Nodup

theorem accepted_iff {draws : Nat} :
    Accepted sampling branches draws ↔ DrawsFit sampling branches draws ∧ ∀ b ∈ branches, b.Faultless := by
  constructor
  · intro h
    refine ⟨⟨fun hmode b hb => (h.once hmode b hb).le, fun hmode => (h.drawn hmode).2⟩,
      fun b hb => ⟨?_, h.weighted b hb, h.distinct b hb⟩⟩
    cases hmode : sampling.isSampling with
    | false => exact (h.once hmode b hb).ge
    | true => exact (h.drawn hmode).1 b hb
  · rintro ⟨hdraws, hfaultless⟩
    exact ⟨fun hmode b hb => Nat.le_antisymm (hdraws.once hmode b hb) (hfaultless b hb).drawn,
      fun hmode => ⟨fun b hb => (hfaultless b hb).drawn, hdraws.total hmode⟩,
      fun b hb => (hfaultless b hb).weighted, fun b hb => (hfaultless b hb).distinct⟩

theorem isOk_build : (build sampling branches).isOk = true ↔
    Accepted sampling branches (wordTotal (branches.map ModelBranch.samples)) := by
  rw [accepted_iff, ← samplingFault?_eq_none]
  unfold build
  constructor
  · intro h
    obtain ⟨c, hc⟩ := Outcome.isOk_iff.1 h
    split at hc
    · cases hc
    · obtain ⟨ms, hms, -⟩ := Outcome.map_eq_ok.1 hc
      refine ⟨‹_›, fun b hb => ?_⟩
      obtain ⟨m, -, hm⟩ := exists_right_of_forall₂ (becomes_buildModels branches hms) b hb
      exact ModelBranch.fault?_eq_none.1 hm.faultless
  · rintro ⟨hdraws, hfaultless⟩
    obtain ⟨ms, hms⟩ := exists_buildModels (fun b hb => ModelBranch.fault?_eq_none.2 (hfaultless b hb)) 0 1
    rw [hdraws]
    dsimp only
    rw [hms]
    rfl

theorem fills_buildModels : ∀ (branches : List (ModelBranch S W)) {ordinal first : Nat} {ms : List (SourceModel S W)},
    buildModels ordinal first branches = .ok ms → List.Forall₂ ModelBranch.Fills branches ms
  | [], _, _, _, h => by
    cases h
    exact .nil
  | b :: branches, _, _, _, h => by
    obtain ⟨hb, m, ms, hm, hms, rfl⟩ := buildModels_cons_eq_ok.1 h
    exact .cons (ModelBranch.fills_toModel (ModelBranch.nodup_of_fault? hb) hm) (fills_buildModels branches hms)

/-- The composite of some branches: a model for each branch, the models numbered from zero on and their groups from one
on. -/
structure Assembled (sampling : SamplingSettings) (branches : List (ModelBranch S W)) (c : Composite S W) : Prop where
  models : List.Forall₂ ModelBranch.Fills branches c.models
  ordinals : c.models.map SourceModel.ordinal = List.range branches.length
  ids : c.groups.map SourceGroup.id = (List.range' 1 c.groups.length).map GroupId.mk
  composition_eq : c.composition = .ofModels c.models
  sampling_eq : c.sampling = sampling
  report_eq : c.report = none

theorem assembled_build {c : Composite S W} (h : build sampling branches = .ok c) : Assembled sampling branches c := by
  unfold build at h
  split at h
  · cases h
  · obtain ⟨ms, hms, rfl⟩ := Outcome.map_eq_ok.1 h
    have hfills := fills_buildModels branches hms
    have hlaid := laidOut_buildModels branches hms
    refine ⟨hfills, ?_, hlaid.ids, rfl, rfl, rfl⟩
    change ms.map SourceModel.ordinal = _
    rw [hlaid.ordinals, hfills.length_eq, List.range_eq_range']

/-- The branches decide whether a composite is built, given how often they are drawn together, and if not, what they are
refused for. -/
structure Decides (sampling : SamplingSettings) (branches : List (ModelBranch S W)) (draws : Nat) : Prop where
  isOk_iff : (build sampling branches).isOk = true ↔ Accepted sampling branches draws
  error_iff : ∀ f, build sampling branches = .error f ↔ Refused sampling branches draws f

/-- Two branches, the first of which is drawn twice and has sources of two tectonic region types in turn. -/
def twoCatalogues : List (ModelBranch Strip Float) :=
  [{ name := "north", weight := 0.6, tree := .empty, samples := 2, sources := [
      { id := "a", trt := "Active" }, { id := "b", trt := "Stable" }, { id := "c", trt := "Active" }] },
   { name := "south", weight := 0.4, tree := .empty, sources := [{ id := "a", trt := "Stable" }] }]

/-- Two branches that are drawn half as often as a word has values, the second of them once more. -/
def fullCatalogues : List (ModelBranch Strip Float) :=
  [{ name := "north", weight := 0.6, tree := .empty, samples := twoTo 63 },
   { name := "south", weight := 0.4, tree := .empty, samples := twoTo 63 + 1 }]

end Composite
end SeismicHazard
