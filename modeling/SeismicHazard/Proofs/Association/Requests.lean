import SeismicHazard.Proofs.Association.Reducing
import SeismicHazard.Proofs.Association.Resemblance
import SeismicHazard.Proofs.Association.Telling
import SeismicHazard.Proofs.Association.Viability
import SeismicHazard.Proofs.Composite.Runs
/-!
# Requests — associations that are built again and again

A build reduces the trees that it reads, so the next build finds other trees.  A branch set that was dropped does not
come back: after some requests the tree of a model has the branch sets for which the model had a live group at every
one of them (`trees_after`), as no request ends before all models were reached.  A request that finds the same live
groups as the one before it is answered alike (`answer_again`), since nothing is left to reduce.
-/
namespace SeismicHazard

variable {S W : Type}

theorem SourceModel.exists_paths_of_checked {m : SourceModel S Float} (h : m.tree.Checked)
    (weight : SourceGroup S → Float) (sampling : SamplingSettings) :
    ∃ ps, (m.reduceToLive weight).paths sampling = .ok ps := by
  have hchecked : (m.reduceToLive weight).tree.Checked := h.reduce _
  unfold paths
  by_cases hs : sampling.isSampling = true
  · obtain ⟨ps, g, hps⟩ := BranchSetTree.sample_of_checked hchecked (m.reduceToLive weight).samples
      (Generator.seeded (sampling.seedFor (m.reduceToLive weight).ordinal))
    simp [hs, hps, Except.map]
  · simp [hs]

namespace Composite

/-! ## Requests and answers -/

inductive Request (S W : Type) where
  /-- The live groups are those with ruptures, which are counted if they were not. -/
  | byRuptures
  | byWeight (weight : SourceGroup S → W)

def Request.weight [Scalar W] : Request S W → SourceGroup S → W
  | byRuptures => ruptureCount
  | byWeight weight => weight

def prepared [Source S] (c : Composite S W) : Request S W → Composite S W
  | .byRuptures => c.countRuptures false
  | .byWeight _ => c

def SameGroup (g g' : SourceGroup S) : Prop := g'.id = g.id ∧ g'.trt = g.trt

theorem alike_sameGroup : Association.Alike (SameGroup (S := S)) where
  id_eq := fun h => h.1
  trt_eq := fun h => h.2
  told := fun h _ => ⟨h.1, h.2⟩

theorem prepared_regrouped [Source S] (c : Composite S W) (r : Request S W) :
    List.Forall₂ (Regrouped SameGroup) c.models (c.prepared r).models := by
  cases r with
  | byRuptures =>
    refine forall₂_map_self (fun m => ⟨rfl, forall₂_map_self (fun g => ?_) m.groups⟩) c.models
    by_cases h : g.ruptures = 0 <;> simp [SameGroup, SourceGroup.countRuptures, h]
  | byWeight weight => exact List.forall₂_same.2 fun m _ => ⟨rfl, List.forall₂_same.2 fun g _ => ⟨rfl, rfl⟩⟩

theorem DrawnEnough.of_continues [Source S] {c c' : Composite S W} (hd : c.DrawnEnough) (h : c.Continues c')
    (sampling : c'.sampling = c.sampling) : c'.DrawnEnough := by
  have hsamples : c.models.map SourceModel.samples = c'.models.map SourceModel.samples :=
    map_eq_of_forall₂ (fun _ _ hm => hm.samples_eq.symm) h.models
  constructor
  case drawn =>
    intro m' hm'
    obtain ⟨m, hm, hcont⟩ := exists_left_of_forall₂ h.models m' hm'
    rw [hcont.samples_eq]
    exact hd.drawn m hm
  case once =>
    intro hs m' hm'
    obtain ⟨m, hm, hcont⟩ := exists_left_of_forall₂ h.models m' hm'
    rw [hcont.samples_eq]
    exact hd.once (by rwa [← sampling]) m hm
  case total =>
    intro hs
    rw [sampling] at hs ⊢
    rw [← hsamples]
    exact hd.total hs

variable [Scalar W]

/-- A model that a build left and that was then regrouped resembles what it was, if its live tectonic region types are
the same: reduced to these it has the same tree, whether the build reached it or not. -/
theorem resembles_of_framed {weight weight' : SourceGroup S → W} {m m₁ m₂ : SourceModel S W}
    (hm₁ : m.Framed weight m₁) (hm₂ : Regrouped SameGroup m₁ m₂)
    (live : ∀ trt, (m.liveTrts weight).contains trt = true ↔ (m₂.liveTrts weight').contains trt = true) :
    Association.Resembles SameGroup (fun _ _ => True) weight weight' m m₂ := by
  obtain ⟨hrest, hgroups⟩ := hm₂
  have htree : m₂.tree.reduce (m₂.liveTrts weight') = m.tree.reduce (m.liveTrts weight) := by
    rw [← m₂.tree.reduce_congr live, hrest]
    rcases hm₁.tree with h | h <;> simp [h, BranchSetTree.reduce_reduce]
  have hsame : List.Forall₂ SameGroup m.groups m₁.groups := hm₁.groups.imp fun _ _ hg => ⟨hg.id_eq, hg.trt_eq⟩
  refine ⟨⟨?_, ?_⟩, trivial⟩
  · unfold SourceModel.reduceToLive
    rw [htree, hrest, hm₁.rest]
  · exact forall₂_trans (fun _ _ _ h h' => ⟨h'.1.trans h.1, h'.2.trans h.2⟩) hsame hgroups

variable [Source S]

def answer (c : Composite S W) : Request S W → Composite S W × Except Abort (Association W)
  | .byRuptures => c.associate
  | .byWeight weight => c.associateBy weight

def after (c : Composite S W) (rs : List (Request S W)) : Composite S W := rs.foldl (fun c r => (c.answer r).1) c

/-- At a request, the model at a position has a live group of a tectonic region type. -/
def LiveAt (c : Composite S W) (r : Request S W) (i : Nat) (trt : String) : Prop :=
  ∃ m, (c.prepared r).models[i]? = some m ∧ ∃ g ∈ m.groups, g.trt = trt ∧ Scalar.isPositive (r.weight g) = true

/-- The model at a position has such a group at each of some requests, when its turn comes. -/
def LiveThroughout (c : Composite S W) (rs : List (Request S W)) (i : Nat) (trt : String) : Prop :=
  ∀ before r later, rs = before ++ r :: later → (c.after before).LiveAt r i trt

theorem answer_eq (c : Composite S W) (r : Request S W) : c.answer r = (c.prepared r).associateBy r.weight := by
  cases r <;> rfl

theorem after_snoc (c : Composite S W) (rs : List (Request S W)) (r : Request S W) :
    c.after (rs ++ [r]) = ((c.after rs).answer r).1 := by
  simp [after]

theorem liveThroughout_cons (c : Composite S W) (r : Request S W) (rs : List (Request S W)) (i : Nat) (trt : String) :
    c.LiveThroughout (r :: rs) i trt ↔ c.LiveAt r i trt ∧ (c.answer r).1.LiveThroughout rs i trt := by
  constructor
  · intro h
    refine ⟨h [] r rs rfl, fun before r' later hrs => ?_⟩
    exact h (r :: before) r' later (by rw [hrs]; rfl)
  · rintro ⟨hr, hrs⟩ before r' later heq
    cases before with
    | nil =>
      simp only [List.nil_append, List.cons.injEq] at heq
      obtain ⟨rfl, rfl⟩ := heq
      exact hr
    | cons r'' before =>
      simp only [List.cons_append, List.cons.injEq] at heq
      obtain ⟨rfl, rfl⟩ := heq
      exact hrs before r' later rfl

theorem liveAt_iff {c : Composite S W} {r : Request S W} {i : Nat} {m : SourceModel S W}
    (hm : (c.prepared r).models[i]? = some m) (trt : String) :
    c.LiveAt r i trt ↔ (m.liveTrts r.weight).contains trt = true := by
  rw [SourceModel.contains_liveTrts]
  constructor
  · rintro ⟨m', hm', hlive⟩
    obtain rfl : m = m' := by simpa [hm] using hm'
    exact hlive
  · exact fun hlive => ⟨m, hm, hlive⟩

/-! ## The same request again -/

/-- **A request that finds the live groups of the one before it is answered alike.** -/
theorem answer_again (c : Composite S W) (r r' : Request S W)
    (live : ∀ i trt, c.LiveAt r i trt ↔ (c.answer r).1.LiveAt r' i trt) :
    ((c.answer r).1.answer r').2 = (c.answer r).2 := by
  have hrebuilt := forall₂_associateBy r.weight (c.prepared r)
  have hprepared := prepared_regrouped (c.answer r).1 r'
  rw [answer_eq c r] at hprepared live ⊢
  rw [answer_eq]
  refine (associateBy_alike alike_sameGroup (fun _ _ _ => trivial) ?_ ?_ (forall₂_of_getElem? ?_ ?_)).1
  · cases r' <;> rfl
  · cases r' <;> rfl
  · rw [hrebuilt.length_eq, hprepared.length_eq]
  · intro i m m₂ hm hm₂
    obtain ⟨m₁, hm₁, hreb⟩ := getElem?_of_forall₂ hrebuilt hm
    obtain ⟨m₂', hm₂', hreg⟩ := getElem?_of_forall₂ hprepared hm₁
    obtain rfl : m₂ = m₂' := by simpa [hm₂] using hm₂'
    have hframed := SourceModel.framed_of_rebuilt hreb
    refine ⟨resembles_of_framed hframed hreg fun trt => ?_, ?_⟩
    · rw [← liveAt_iff hm, ← liveAt_iff hm₂, live]
    · rw [hreg.1, hframed.rest]

/-! ## Trees after some requests -/

variable {c : Composite S Float}

/-- What makes a build reach every model: the composite is what it was when it was built, and paths can be drawn. -/
structure Ready (c : Composite S Float) : Prop where
  consistent : c.Consistent
  drawn : c.DrawnEnough
  checked : ∀ m ∈ c.models, m.tree.Checked

theorem ready_build {sampling : SamplingSettings} {branches : List (ModelBranch S Float)}
    (built : build sampling branches = .ok c) (trees : ∀ b ∈ branches, ∃ sets, BranchSetTree.ofSets sets = .ok b.tree) :
    c.Ready := by
  obtain ⟨-, -, hbecomes⟩ := becomes_build built
  refine ⟨consistent_build built, drawnEnough_build built, fun m hm => ?_⟩
  obtain ⟨b, hb, hbm⟩ := exists_left_of_forall₂ hbecomes m hm
  obtain ⟨sets, hsets⟩ := trees b hb
  rw [hbm.tree_eq]
  exact BranchSetTree.checked_of_ofSets hsets

theorem Ready.prepared (h : c.Ready) (r : Request S Float) : (c.prepared r).Ready := by
  cases r with
  | byRuptures =>
    have hcont : c.Continues (c.countRuptures false) :=
      continues_mapGroups (SourceGroup.continues_countRuptures false) c
    refine ⟨h.consistent.of_continues hcont, h.drawn.of_continues hcont rfl, fun m hm => ?_⟩
    obtain ⟨m', hm', rfl⟩ := List.mem_map.1 hm
    exact h.checked m' hm'
  | byWeight weight => exact h

theorem Ready.reduced (h : c.Ready) (weight : SourceGroup S → Float) :
    List.Forall₂ (fun m m' => m'.tree = m.tree.reduce (m.liveTrts weight)) c.models
      (c.associateBy weight).1.models := by
  obtain ⟨b, hb⟩ := exists_addModels_of_consistent h.consistent h.drawn fun m hm =>
    SourceModel.exists_paths_of_checked (h.checked m hm) weight c.sampling
  obtain ⟨hvisited, -⟩ := Association.addModels_visited c.sampling weight _ _ b hb
  exact (forall₂_byPosition hvisited).imp fun _ _ hm => (SourceModel.completed_of_visited hm).tree

theorem Ready.associateBy (h : c.Ready) (weight : SourceGroup S → Float) : (c.associateBy weight).1.Ready := by
  have hcont := continues_associateBy weight c
  refine ⟨h.consistent.of_continues hcont, h.drawn.of_continues hcont rfl, fun m' hm' => ?_⟩
  obtain ⟨m, hm, htree⟩ := exists_left_of_forall₂ (h.reduced weight) m' hm'
  rw [htree]
  exact (h.checked m hm).reduce _

theorem Ready.answer (h : c.Ready) (r : Request S Float) : (c.answer r).1.Ready := by
  rw [answer_eq]
  exact (h.prepared r).associateBy r.weight

/-- **A request keeps the branch sets with a live group**, and drops the others. -/
theorem Ready.tree_answer (h : c.Ready) (r : Request S Float) {i : Nat} {m : SourceModel S Float}
    (hm : c.models[i]? = some m) : ∃ m', (c.answer r).1.models[i]? = some m' ∧ ∀ trt bs,
      m'.tree.branches? trt = some bs ↔ m.tree.branches? trt = some bs ∧ c.LiveAt r i trt := by
  obtain ⟨m₁, hm₁, hreg⟩ := getElem?_of_forall₂ (prepared_regrouped c r) hm
  obtain ⟨m', hm', htree⟩ := getElem?_of_forall₂ ((h.prepared r).reduced r.weight) hm₁
  have hsame : m₁.tree = m.tree := by rw [hreg.1]
  rw [answer_eq]
  refine ⟨m', hm', fun trt bs => ?_⟩
  rw [htree, hsame, liveAt_iff hm₁]
  by_cases hlive : (m₁.liveTrts r.weight).contains trt = true <;> simp [hlive]

/-- **After some requests a tree has the branch sets with a live group at each of them.** -/
theorem Ready.trees_after : ∀ (rs : List (Request S Float)) {c : Composite S Float}, c.Ready →
    (c.after rs).Ready ∧ (c.after rs).models.length = c.models.length ∧
    ∀ i m, c.models[i]? = some m → ∃ m', (c.after rs).models[i]? = some m' ∧ ∀ trt bs,
      m'.tree.branches? trt = some bs ↔ m.tree.branches? trt = some bs ∧ c.LiveThroughout rs i trt
  | [], c, h => by
    refine ⟨h, rfl, fun i m hm => ⟨m, hm, fun trt bs => ?_⟩⟩
    have hnone : c.LiveThroughout [] i trt := fun before r later heq => by simp at heq
    simp [hnone]
  | r :: rs, c, h => by
    obtain ⟨hready, hlen, htrees⟩ := trees_after rs (h.answer r)
    have hmodels : (c.answer r).1.models.length = c.models.length := by
      rw [answer_eq, ← (forall₂_associateBy r.weight _).length_eq, ← (prepared_regrouped c r).length_eq]
    refine ⟨hready, hlen.trans hmodels, fun i m hm => ?_⟩
    obtain ⟨m₁, hm₁, hone⟩ := h.tree_answer r hm
    obtain ⟨m', hm', hrest⟩ := htrees i m₁ hm₁
    refine ⟨m', hm', fun trt bs => ?_⟩
    rw [hrest, hone, liveThroughout_cons, and_assoc]

structure Requested (c : Composite S Float) (rs : List (Request S Float)) : Prop where
  length : (c.after rs).models.length = c.models.length
  /-- The tree of a model has exactly those of its branch sets for which the model itself had a live group at every
  request, and these are what they were. -/
  trees : ∀ i m, c.models[i]? = some m → ∃ m', (c.after rs).models[i]? = some m' ∧ ∀ trt bs,
    m'.tree.branches? trt = some bs ↔ m.tree.branches? trt = some bs ∧ c.LiveThroughout rs i trt
  orderly : ∀ r, ((c.after rs).answer r).2 ≠ .error .crashed
  /-- A request that follows one with the same live groups is answered alike. -/
  repeated : ∀ r r', (∀ i trt, (c.after rs).LiveAt r i trt ↔ (c.after (rs ++ [r])).LiveAt r' i trt) →
    ((c.after (rs ++ [r])).answer r').2 = ((c.after rs).answer r).2

/-- **What is dropped at a request does not come back, and what is asked again is answered alike.** -/
theorem requested {sampling : SamplingSettings} {branches : List (ModelBranch S Float)} {c : Composite S Float}
    (built : build sampling branches = .ok c) (trees : ∀ b ∈ branches, ∃ sets, BranchSetTree.ofSets sets = .ok b.tree)
    (rs : List (Request S Float)) : c.Requested rs := by
  obtain ⟨hready, hlen, htrees⟩ := (ready_build built trees).trees_after rs
  constructor
  case length => exact hlen
  case trees => exact htrees
  case orderly =>
    intro r hcrash
    have hprepared := hready.prepared r
    obtain ⟨b, hb, -⟩ := exists_added hprepared.consistent hprepared.drawn fun m hm =>
      SourceModel.exists_paths_of_checked (hprepared.checked m hm) r.weight _
    rw [answer_eq, hb] at hcrash
    cases hnorm : b.normalize ((c.after rs).prepared r).sampling <;> rw [hnorm] at hcrash <;> cases hcrash
  case repeated =>
    intro r r' live
    rw [after_snoc] at live ⊢
    exact answer_again (c.after rs) r r' live

def sharedTree : List (ModelBranch Strip Float) :=
  let tree : BranchSetTree Float := ⟨.ofList [("Active", [⟨"b1", "A", 1⟩]), ("Stable", [⟨"b2", "B", 1⟩])]⟩
  let sources : List Strip := [{ id := "a", trt := "Active" }, { id := "b", trt := "Stable" }]
  [{ name := "north", weight := 1 / 2, tree, sources }, { name := "south", weight := 1 / 2, tree, sources }]

def without (dead : List GroupId) : Request Strip Float := .byWeight (fun g => if g.id ∈ dead then 0 else 1)

-- the second request fails, as it leaves the first model no branch set; the third one does not bring any of them back
theorem requested_sharedTree : (∀ b ∈ sharedTree, ∃ sets, BranchSetTree.ofSets sets = .ok b.tree) ∧
    ∃ c, build { samples := 2 } sharedTree = .ok c ∧ c.Requested [without [⟨2⟩], without [⟨1⟩], .byRuptures] ∧
      (c.after [without [⟨2⟩]]).models.map (fun m => m.tree.trts) = [["Active"], ["Active", "Stable"]] ∧
      (c.after [without [⟨2⟩], without [⟨1⟩], .byRuptures]).models.map (fun m => m.tree.trts) =
        [[], ["Active", "Stable"]] ∧
      ((c.after [without [⟨2⟩]]).answer (without [⟨1⟩])).2.isOk = false := by
  have trees : ∀ b ∈ sharedTree, ∃ sets, BranchSetTree.ofSets sets = .ok b.tree := by
    have both : BranchSetTree.ofSets [("Active", [⟨"b1", "A", 1⟩]), ("Stable", [⟨"b2", "B", 1⟩])] =
        .ok (⟨.ofList [("Active", [⟨"b1", "A", 1⟩]), ("Stable", [⟨"b2", "B", 1⟩])]⟩ : BranchSetTree Float) := by
      decide +kernel
    intro b hb
    refine ⟨_, both.trans ?_⟩
    rcases List.mem_pair.1 hb with rfl | rfl <;> rfl
  have kept : (build { samples := 2 } sharedTree).toOption.map (fun c =>
      ((c.after [without [⟨2⟩]]).models.map (fun m => m.tree.trts),
        (c.after [without [⟨2⟩], without [⟨1⟩], .byRuptures]).models.map (fun m => m.tree.trts),
        ((c.after [without [⟨2⟩]]).answer (without [⟨1⟩])).2.isOk)) =
      some ([["Active"], ["Active", "Stable"]], [[], ["Active", "Stable"]], false) := by
    decide +kernel
  obtain ⟨c, hc, hkept⟩ := Outcome.map_toOption_eq_some.1 kept
  obtain ⟨hfirst, hrest⟩ := Prod.mk.inj hkept
  obtain ⟨hlast, hfailed⟩ := Prod.mk.inj hrest
  exact ⟨trees, c, hc, requested hc trees _, hfirst, hlast, hfailed⟩

end Composite
end SeismicHazard
