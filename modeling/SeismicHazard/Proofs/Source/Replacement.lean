import SeismicHazard.Source.Group
/-!
# Replacement — which sources a group accepts

A group accepts sources of its tectonic region type whose identifiers all differ (`accepts_iff`), and then its sources
are replaced, its magnitude range is taken anew and, on demand, its ruptures are counted (`refill_eq`).
-/
namespace SeismicHazard
namespace SourceGroup

variable {S : Type} [Source S]

def Accepts (g : SourceGroup S) (sources : List S) : Prop := g.checkReplacement sources = .ok ()

def refill (g : SourceGroup S) (sources : List S) : SourceGroup S := (g.setSources sources).countRuptures true

theorem fault?_eq_none {g : SourceGroup S} : ∀ {sources : List S} {seen : List String},
    g.fault? seen sources = none ↔ (∀ s ∈ sources, Source.trt s = g.trt) ∧ (sources.map Source.id).Nodup ∧
      ∀ s ∈ sources, Source.id s ∉ seen
  | [], seen => by simp [fault?]
  | s :: sources, seen => by
    rw [fault?]
    by_cases ht : Source.trt s = g.trt
    · rw [if_neg (not_not_intro ht)]
      by_cases hs : Source.id s ∈ seen
      · simp [hs]
      · rw [if_neg hs, fault?_eq_none]
        -- an identifier that is met for the first time joins those that were seen
        simp only [List.mem_cons, List.map_cons, List.nodup_cons, List.mem_map, not_or, not_exists, not_and]
        constructor
        · rintro ⟨htrt, hnodup, hseen⟩
          refine ⟨?_, ⟨fun s' hs' heq => (hseen s' hs').1 heq, hnodup⟩, ?_⟩
          · rintro s' (rfl | hs')
            · exact ht
            · exact htrt s' hs'
          · rintro s' (rfl | hs')
            · exact hs
            · exact (hseen s' hs').2
        · rintro ⟨htrt, ⟨hnew, hnodup⟩, hseen⟩
          exact ⟨fun s' hs' => htrt s' (Or.inr hs'), hnodup, fun s' hs' =>
            ⟨fun heq => hnew s' hs' heq, hseen s' (Or.inr hs')⟩⟩
    · simp [ht]

theorem accepts_iff_fault? {g : SourceGroup S} {sources : List S} :
    g.Accepts sources ↔ g.fault? [] sources = none := by
  unfold Accepts checkReplacement
  cases g.fault? [] sources <;> simp

/-- **A group accepts sources of its tectonic region type whose identifiers all differ.** -/
theorem accepts_iff {g : SourceGroup S} {sources : List S} :
    g.Accepts sources ↔ (∀ s ∈ sources, Source.trt s = g.trt) ∧ (sources.map Source.id).Nodup := by
  rw [accepts_iff_fault?, fault?_eq_none]
  exact ⟨fun ⟨htrt, hid, _⟩ => ⟨htrt, hid⟩, fun ⟨htrt, hid⟩ => ⟨htrt, hid, fun _ _ => List.not_mem_nil⟩⟩

theorem Accepts.of_perm {g : SourceGroup S} {l r : List S} (hr : g.Accepts r) (h : l.Perm r) : g.Accepts l := by
  obtain ⟨htrt, hnodup⟩ := accepts_iff.1 hr
  exact accepts_iff.2 ⟨fun s hs => htrt s (h.mem_iff.1 hs), (h.map Source.id).nodup_iff.2 hnodup⟩

theorem replaceSources_of_accepts {g : SourceGroup S} {sources : List S} (h : g.Accepts sources) :
    g.replaceSources sources = .ok (g.sources, g.setSources sources) := by
  unfold replaceSources
  rw [show g.checkReplacement sources = .ok () from h]
  rfl

theorem refill_eq (g : SourceGroup S) (sources : List S) :
    g.refill sources = { g.setSources sources with ruptures := wordTotal (sources.map Source.ruptures) } := by
  unfold refill countRuptures
  rw [if_pos (Bool.or_true _)]
  rfl

end SourceGroup
end SeismicHazard
