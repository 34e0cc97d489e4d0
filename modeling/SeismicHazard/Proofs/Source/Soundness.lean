import SeismicHazard.Proofs.Source.Envelope
import SeismicHazard.Proofs.Source.Replacement
import SeismicHazard.Source.Strip
import Mathlib.Data.List.Nodup
/-!
# Soundness — what a group says of its sources is true

A group is sound if its sources have its tectonic region type and differ in their identifiers, and if its magnitude
range and its rupture count are those of its sources; a rupture count may also be missing.  A group becomes sound source
by source (`Sound.push`) or all at once (`sound_refill`), and it stays sound when it is tagged and counted.  What the
operations of a composite do to a group is summed up by `Continues`.
-/
namespace SeismicHazard

/-- Sources whose tag, if they keep one, is apart from everything else that is asked of them. -/
class TagApart (S : Type) [Source S] : Prop where
  id_setTag : ∀ (s : S) (g : GroupId), Source.id (Source.setTag s g) = Source.id s
  trt_setTag : ∀ (s : S) (g : GroupId), Source.trt (Source.setTag s g) = Source.trt s
  magnitudes_setTag : ∀ (s : S) (g : GroupId), Source.magnitudes (Source.setTag s g) = Source.magnitudes s
  ruptures_setTag : ∀ (s : S) (g : GroupId), Source.ruptures (Source.setTag s g) = Source.ruptures s

instance : TagApart Strip := ⟨fun _ _ => rfl, fun _ _ => rfl, fun _ _ => rfl, fun _ _ => rfl⟩

instance {S : Type} [Source S] : TagApart (Untagged S) :=
  ⟨fun _ _ => rfl, fun _ _ => rfl, fun _ _ => rfl, fun _ _ => rfl⟩

theorem total_pos_iff : ∀ ns : List Nat, 0 < total ns ↔ ∃ n ∈ ns, 0 < n
  | [] => by simp
  | n :: ns => by
    have ih := total_pos_iff ns
    simp only [total_cons, List.mem_cons, exists_eq_or_imp, ← ih]
    omega

namespace SourceGroup

variable {S : Type} [Source S]

def leastMags (g : SourceGroup S) : List Float := g.sources.map (fun s => (Source.magnitudes s).1)

def greatestMags (g : SourceGroup S) : List Float := g.sources.map (fun s => (Source.magnitudes s).2)

/-- **What a group says of its sources is true.** -/
structure Sound (g : SourceGroup S) : Prop where
  /-- The sources have the tectonic region type of the group. -/
  trts : ∀ s ∈ g.sources, Source.trt s = g.trt
  distinct : (g.sources.map Source.id).Nodup
  least : Extreme (· ≤ ·) g.minMag g.leastMags
  greatest : Extreme (fun a b => b ≤ a) g.maxMag g.greatestMags
  /-- The ruptures were not counted, or they are those of the sources, added up in a word. -/
  counted : g.ruptures = 0 ∨ g.ruptures = wordTotal (g.sources.map Source.ruptures)

theorem sound_empty (trt : String) : ({ trt } : SourceGroup S).Sound where
  trts _ h := by cases h
  distinct := List.nodup_nil
  least := extreme_none
  greatest := extreme_none
  counted := Or.inl rfl

/-! ## Sources that enter a group -/

theorem minMag_push (g : SourceGroup S) (s : S) :
    (g.push s).minMag = keepWith lowerMag g.minMag (Source.magnitudes s).1 := by
  unfold push keepWith
  dsimp only
  cases g.minMag with
  | none => rfl
  | some m =>
    dsimp only [Option.elim, Option.all, lowerMag]
    by_cases h : (Source.magnitudes s).1 < m <;> simp [h]

theorem maxMag_push (g : SourceGroup S) (s : S) :
    (g.push s).maxMag = keepWith higherMag g.maxMag (Source.magnitudes s).2 := by
  unfold push keepWith
  dsimp only
  cases g.maxMag with
  | none => rfl
  | some m =>
    dsimp only [Option.elim, Option.all, higherMag]
    by_cases h : m < (Source.magnitudes s).2 <;> simp [h]

/-- **A new source of the right tectonic region type keeps a group sound** that was not counted. -/
theorem Sound.push {g : SourceGroup S} (h : g.Sound) {s : S} (ht : Source.trt s = g.trt)
    (hs : Source.id s ∉ g.sources.map Source.id) (h0 : g.ruptures = 0) : (g.push s).Sound where
  trts s' hs' := by
    rcases List.mem_append.1 hs' with hs' | hs'
    · exact h.trts s' hs'
    · rw [List.mem_singleton.1 hs']
      exact ht
  distinct := by
    change ((g.sources ++ [s]).map Source.id).Nodup
    rw [List.map_append, List.nodup_append]
    refine ⟨h.distinct, List.nodup_singleton _, fun a ha b hb hab => hs ?_⟩
    rw [← List.mem_singleton.1 hb, ← hab]
    exact ha
  least := by
    have := h.least.snoc picks_lowerMag (Source.magnitudes s).1
    rw [minMag_push]
    simpa [leastMags, SourceGroup.push] using this
  greatest := by
    have := h.greatest.snoc picks_higherMag (Source.magnitudes s).2
    rw [maxMag_push]
    simpa [greatestMags, SourceGroup.push] using this
  counted := Or.inl h0

theorem minMag_setSources (g : SourceGroup S) (sources : List S) : (g.setSources sources).minMag =
    (sources.map (fun s => (Source.magnitudes s).1)).foldl (keepWith lesserMag) none := by
  rw [List.foldl_map]
  exact List.foldl_map

theorem maxMag_setSources (g : SourceGroup S) (sources : List S) : (g.setSources sources).maxMag =
    (sources.map (fun s => (Source.magnitudes s).2)).foldl (keepWith greaterMag) none := by
  rw [List.foldl_map]
  exact List.foldl_map

/-- **A group that accepts its sources is sound with them**, whatever it was before. -/
theorem sound_refill {g : SourceGroup S} {sources : List S} (h : g.Accepts sources) : (g.refill sources).Sound := by
  obtain ⟨htrt, hid⟩ := accepts_iff.1 h
  rw [refill_eq]
  refine ⟨htrt, hid, ?_, ?_, Or.inr rfl⟩
  · change Extreme _ (g.setSources sources).minMag _
    rw [minMag_setSources]
    exact extreme_foldl picks_lesserMag _ extreme_none
  · change Extreme _ (g.setSources sources).maxMag _
    rw [maxMag_setSources]
    exact extreme_foldl picks_greaterMag _ extreme_none

/-! ## Tags and counts -/

theorem Sound.tagSources [TagApart S] {g : SourceGroup S} (h : g.Sound) : g.tagSources.Sound where
  trts s hs := by
    obtain ⟨s', hs', rfl⟩ := List.mem_map.1 hs
    rw [TagApart.trt_setTag]
    exact h.trts s' hs'
  distinct := by
    have := h.distinct
    simpa [SourceGroup.tagSources, Function.comp_def, TagApart.id_setTag] using this
  least := by
    have := h.least
    simpa [SourceGroup.tagSources, leastMags, Function.comp_def, TagApart.magnitudes_setTag] using this
  greatest := by
    have := h.greatest
    simpa [SourceGroup.tagSources, greatestMags, Function.comp_def, TagApart.magnitudes_setTag] using this
  counted := by
    have := h.counted
    simpa [SourceGroup.tagSources, Function.comp_def, TagApart.ruptures_setTag] using this

theorem Sound.countRuptures {g : SourceGroup S} (h : g.Sound) (force : Bool) : (g.countRuptures force).Sound := by
  unfold SourceGroup.countRuptures
  split
  · exact ⟨h.trts, h.distinct, h.least, h.greatest, Or.inr rfl⟩
  · exact h

theorem Sound.ruptures_countRuptures {g : SourceGroup S} (h : g.Sound) :
    (g.countRuptures false).ruptures = wordTotal (g.sources.map Source.ruptures) := by
  unfold SourceGroup.countRuptures
  by_cases h0 : g.ruptures = 0
  · rw [if_pos (by simp [h0])]
    rfl
  · rw [if_neg (by simp [h0])]
    exact h.counted.resolve_left h0

theorem ruptures_pos_iff {g : SourceGroup S} (h : total (g.sources.map Source.ruptures) < wordBound) :
    0 < wordTotal (g.sources.map Source.ruptures) ↔ ∃ s ∈ g.sources, 0 < Source.ruptures s := by
  rw [wordTotal_of_lt h, total_pos_iff]
  constructor
  · rintro ⟨n, hn, hpos⟩
    obtain ⟨s, hs, rfl⟩ := List.mem_map.1 hn
    exact ⟨s, hs, hpos⟩
  · rintro ⟨s, hs, hpos⟩
    exact ⟨_, List.mem_map_of_mem hs, hpos⟩

/-! ## What becomes of a group -/

/-- A group and what became of it: the number and the tectonic region type are the same, and a sound group is still
sound. -/
structure Continues (g g' : SourceGroup S) : Prop where
  id_eq : g'.id = g.id
  trt_eq : g'.trt = g.trt
  sound : g.Sound → g'.Sound

theorem Continues.refl (g : SourceGroup S) : g.Continues g := ⟨rfl, rfl, fun h => h⟩

theorem Continues.trans {g g' g'' : SourceGroup S} (h : g.Continues g') (h' : g'.Continues g'') : g.Continues g'' :=
  ⟨h'.id_eq.trans h.id_eq, h'.trt_eq.trans h.trt_eq, h'.sound ∘ h.sound⟩

theorem continues_tagSources [TagApart S] (g : SourceGroup S) : g.Continues g.tagSources :=
  ⟨rfl, rfl, Sound.tagSources⟩

theorem continues_countRuptures (force : Bool) (g : SourceGroup S) : g.Continues (g.countRuptures force) := by
  refine ⟨?_, ?_, fun h => h.countRuptures force⟩ <;> (unfold countRuptures; split <;> rfl)

theorem continues_refill {g : SourceGroup S} {sources : List S} (h : g.Accepts sources) :
    g.Continues (g.refill sources) := by
  refine ⟨?_, ?_, fun _ => sound_refill h⟩ <;> (rw [refill_eq]; rfl)

end SourceGroup
end SeismicHazard
