import SeismicHazard.Proofs.Association.Combining
import SeismicHazard.Proofs.Association.Origins
/-!
# Delivery — what combining tagged results comes to

A tag is looked up for a realization with collections alone, so which tags are refused, and in what order, can be told
from the results beforehand (`refusals`).  A combination ends with the first of them (`meets_combineTagged`).  Without
any, the values of a tag are folded for each realization that takes it (`delivered_of_ok`).
-/
namespace SeismicHazard
namespace Association

variable {W V : Type}

inductive Obtained [Scalar W] : Association W → Prop
  | built {S : Type} (weight : SourceGroup S → W) (c : Composite S W) {a : Association W} :
    (c.associateBy weight).2 = .ok a → Obtained a
  | assembled (composition : Composition) (realizations : List (Realization W)) (index : AssocIndex)
    {a : Association W} : ofParts composition realizations index = .ok a → Obtained a

/-! ## Refusals -/

def refusal? (lookup : String → Except Failure CollectionId) (tag : String) : Option Failure :=
  match lookup tag with
  | .ok _ => none
  | .error f => some f

/-- The faults of looking up the tags of a table for a realization, which does so if it has collections. -/
def refusalsFor (lookup : String → Except Failure CollectionId) (r : Realization W) (tags : List String) :
    List Failure := if r.collections.isEmpty then [] else tags.filterMap (refusal? lookup)

/-- The faults of looking up the tags of results, by result, by position that its key lists, and by tag. -/
def refusals (a : Association W) (lookup : String → Except Failure CollectionId)
    (results : List (AssocKey × SortedMap String V)) : List Failure :=
  results.flatMap (fun e => (a.get e.1).flatMap (fun r => refusalsFor lookup r e.2.keys))

variable {lookup : String → Except Failure CollectionId} {agg : V → V → V}

theorem mem_refusals {a : Association W} {results : List (AssocKey × SortedMap String V)} {f : Failure} :
    f ∈ a.refusals lookup results ↔ ∃ e ∈ results, ∃ r ∈ a.get e.1, r.collections.isEmpty = false ∧
      ∃ tag ∈ e.2.keys, lookup tag = .error f := by
  have hrefusal : ∀ tag, refusal? lookup tag = some f ↔ lookup tag = .error f := by
    intro tag
    cases h : lookup tag <;> simp [refusal?, h]
  simp only [refusals, List.mem_flatMap]
  refine exists_congr fun e => and_congr_right fun _ => exists_congr fun r => and_congr_right fun _ => ?_
  cases hr : r.collections.isEmpty <;> simp [refusalsFor, hr, hrefusal]

theorem meets_accepts (lookup : String → Except Failure CollectionId) (r : Realization W) (tag : String) :
    Outcome.Meets (refusalsFor lookup r [tag]) (fun _ => True) (accepts lookup r tag) := by
  cases hr : r.collections.isEmpty with
  | true => simp [refusalsFor, accepts, hr, Outcome.Meets]
  | false => cases htag : lookup tag <;> simp [refusalsFor, refusal?, accepts, hr, htag, Outcome.Meets, Except.map]

theorem flatMap_refusalsFor (r : Realization W) (tags : List String) :
    tags.flatMap (fun tag => refusalsFor lookup r [tag]) = refusalsFor lookup r tags := by
  cases hr : r.collections.isEmpty with
  | true => simp [refusalsFor, hr]
  | false =>
    have hone : ∀ tag, [tag].filterMap (refusal? lookup) = (refusal? lookup tag).toList := fun tag => by
      cases h : refusal? lookup tag <;> simp [h]
    simp [refusalsFor, hr, hone, List.filterMap_eq_flatMap_toList]

theorem meets_absorb (r : Realization W) (entries : List (String × V)) (table : SortedMap String V) :
    Outcome.Meets (refusalsFor lookup r (entries.map Prod.fst)) (fun _ => True)
      (absorb lookup agg r table entries) := by
  rw [← flatMap_refusalsFor, List.flatMap_map]
  refine Outcome.Meets.foldlM (fun table e _ => ?_) entries trivial
  rw [← List.append_nil (refusalsFor lookup r [e.1])]
  exact (meets_accepts lookup r e.1).bind fun b _ => ⟨_, rfl, trivial⟩

/-- **A combination ends with the first tag that is refused**, or comes to one table for each realization. -/
theorem meets_combineTagged (a : Association W) (lookup : String → Except Failure CollectionId) (agg : V → V → V)
    (results : List (AssocKey × SortedMap String V)) :
    Outcome.Meets (a.refusals lookup results) (fun tables => tables.length = a.realizations.length)
      (a.combineTagged lookup agg results) := by
  refine Outcome.Meets.foldlM (fun tables e hlen => ?_) results List.length_replicate
  rw [get, select, List.filterMap_eq_flatMap_toList, List.flatMap_assoc]
  refine Outcome.Meets.foldlM (fun tables o hlen => ?_) (a.ordinals e.1) hlen
  unfold absorbAt
  cases hr : a.realizations[o]? with
  | none => exact ⟨tables, rfl, hlen⟩
  | some r =>
    have ho : o < tables.length := hlen ▸ (List.getElem?_eq_some_iff.1 hr).1
    rw [List.getElem?_eq_getElem ho, Option.toList_some, List.flatMap_singleton]
    exact (meets_absorb r e.2.toList tables[o]).map fun table _ => List.length_set.trans hlen

/-! ## Listed positions -/

theorem lt_of_ofParts {composition : Composition} {realizations : List (Realization W)} {index : AssocIndex}
    {a : Association W} (h : ofParts composition realizations index = .ok a) {k : AssocKey} {n : Nat}
    (hn : n ∈ a.ordinals k) : n < a.realizations.length := by
  unfold ofParts at h
  split at h
  · cases h
  · rename_i hfault
    cases h
    change n ∈ (index.get? k).getD [] at hn
    have hdangling : dangling? realizations.length index = none := by
      cases hmisplaced : misplaced? realizations with
      | none => simpa [hmisplaced] using hfault
      | some fault => simp [hmisplaced] at hfault
    cases hlisted : index.get? k with
    | none => simp [hlisted] at hn
    | some positions =>
      rw [hlisted, Option.getD_some] at hn
      have hall := List.find?_eq_none.1 (Option.map_eq_none_iff.1 hdangling) _ (SortedMap.get?_eq_some.1 hlisted)
      simp only [List.any_eq_true, decide_eq_true_eq, not_exists, not_and, Nat.not_le] at hall
      exact hall n hn

section Listed

variable [Scalar W]

theorem BuiltFrom.lt_of_mem_ordinals {S : Type} {os : List (Origin S W)} {a : Association W} (h : a.BuiltFrom os)
    {k : AssocKey} {n : Nat} (hn : n ∈ a.ordinals k) : n < a.realizations.length := by
  rw [h.ordinals, List.mem_flatMap] at hn
  obtain ⟨o, ho, hn⟩ := hn
  obtain rfl := List.eq_of_mem_replicate hn
  rw [h.length_eq]
  exact List.snd_lt_of_mem_zipIdx ho

theorem Obtained.lt_of_mem_ordinals {a : Association W} (h : a.Obtained) {k : AssocKey} {n : Nat}
    (hn : n ∈ a.ordinals k) : n < a.realizations.length := by
  cases h with
  | built weight c h =>
    obtain ⟨cs, b, f, -, hb, rfl, -⟩ := Composite.associateBy_ok h
    have hlt := hb.lt_of_mem_ordinals hn
    exact Nat.lt_of_lt_of_eq hlt (List.length_map _).symm
  | assembled composition realizations index h => exact lt_of_ofParts h hn

end Listed

/-! ## Values -/

def foldFirst (agg : V → V → V) : List V → Option V
  | [] => none
  | v :: vs => some (vs.foldl agg v)

theorem gather_some (agg : V → V → V) : ∀ (vs : List V) (v : V), gather agg (some v) vs = some (vs.foldl agg v)
  | [], _ => rfl
  | _ :: vs, _ => gather_some agg vs _

theorem gather_none (agg : V → V → V) : ∀ vs : List V, gather agg none vs = foldFirst agg vs
  | [] => rfl
  | v :: vs => gather_some agg vs v

/-- The values that results store for a tag, in order, once for each time that their key lists a position. -/
def stored (a : Association W) (results : List (AssocKey × SortedMap String V)) (n : Nat) (tag : String) : List V :=
  results.flatMap (fun e => (a.ordinals e.1).flatMap (fun o => if o = n then (e.2.get? tag).toList else []))

/-- A realization takes the values with a tag: it has no collections, or that of the tag is one of them. -/
def TakesTag (lookup : String → Except Failure CollectionId) (r : Realization W) (tag : String) : Prop :=
  r.collections.isEmpty = true ∨ ∃ col, lookup tag = .ok col ∧ r.collections.contains col = true

theorem admits_iff {r : Realization W} {tag : String} : admits lookup r tag = true ↔ TakesTag lookup r tag := by
  cases hr : r.collections.isEmpty with
  | true => simp [admits, accepts, TakesTag, hr, Except.toOption]
  | false => cases htag : lookup tag <;> simp [admits, accepts, TakesTag, hr, htag, Except.toOption, Except.map]

theorem given_of_takesTag {a : Association W} {n : Nat} {r : Realization W} (hr : a.realizations[n]? = some r)
    {tag : String} (htag : TakesTag lookup r tag) (results : List (AssocKey × SortedMap String V)) :
    a.given lookup results n tag = a.stored results n tag := by
  simp [given, stored, offered, hr, admits_iff.2 htag]

theorem given_of_not_takesTag {a : Association W} {n : Nat} {r : Realization W} (hr : a.realizations[n]? = some r)
    {tag : String} (htag : ¬TakesTag lookup r tag) (results : List (AssocKey × SortedMap String V)) :
    a.given lookup results n tag = [] := by
  simp [given, offered, hr, mt admits_iff.1 htag]

structure Delivered (a : Association W) (lookup : String → Except Failure CollectionId) (agg : V → V → V)
    (results : List (AssocKey × SortedMap String V)) (tables : List (SortedMap String V)) : Prop where
  length : tables.length = a.realizations.length
  /-- The values that a realization takes are folded in order, from the first one. -/
  taken : ∀ n r, a.realizations[n]? = some r → ∀ tag, TakesTag lookup r tag →
    valueAt tables n tag = foldFirst agg (a.stored results n tag)
  absent : ∀ n r, a.realizations[n]? = some r → ∀ tag,
    valueAt tables n tag = none ↔ ¬(TakesTag lookup r tag ∧ ∃ v, v ∈ a.stored results n tag)

structure Delivers (a : Association W) (lookup : String → Except Failure CollectionId) (agg : V → V → V)
    (results : List (AssocKey × SortedMap String V)) (outcome : Except Failure (List (SortedMap String V))) : Prop where
  listed : ∀ k, ∀ n ∈ a.ordinals k, ∃ r, a.realizations[n]? = some r
  /-- It fails exactly if a tag is refused that is looked up. -/
  refused : (∃ f, outcome = .error f) ↔ ∃ e ∈ results, ∃ r ∈ a.get e.1, r.collections.isEmpty = false ∧
    ∃ tag ∈ e.2.keys, ∃ f, lookup tag = .error f
  first : ∀ f, outcome = .error f ↔ (a.refusals lookup results).head? = some f
  delivered : (¬∃ f, outcome = .error f) → ∃ tables, outcome = .ok tables ∧ a.Delivered lookup agg results tables

theorem delivered_of_ok {a : Association W} {results : List (AssocKey × SortedMap String V)}
    {tables : List (SortedMap String V)} (h : a.combineTagged lookup agg results = .ok tables) :
    a.Delivered lookup agg results tables := by
  obtain ⟨hlen, hvalues⟩ := combineTagged_ok h
  refine ⟨hlen, fun n r hr tag htag => ?_, fun n r hr tag => ?_⟩
  · rw [hvalues, gather_none, given_of_takesTag hr htag]
  · rw [hvalues, gather_none]
    by_cases htag : TakesTag lookup r tag
    · rw [given_of_takesTag hr htag]
      cases h : a.stored results n tag <;> simp [foldFirst, htag]
    · rw [given_of_not_takesTag hr htag]
      simp [foldFirst, htag]

/-- **Combining tagged results delivers exactly.**  It fails with the first refusal of a tag that is looked up, by
result, by listed position and by tag.  If no such tag is refused, each realization has the fold of the values that it
takes, in the order of the results and once for each time that it is listed. -/
theorem combineTagged_delivers [Scalar W] {a : Association W} (obtained : a.Obtained)
    (lookup : String → Except Failure CollectionId) (agg : V → V → V)
    (results : List (AssocKey × SortedMap String V)) :
    a.Delivers lookup agg results (a.combineTagged lookup agg results) := by
  have hmeets := meets_combineTagged a lookup agg results
  constructor
  case listed => exact fun k n hn => ⟨_, List.getElem?_eq_getElem (obtained.lt_of_mem_ordinals hn)⟩
  case refused =>
    rw [hmeets.exists_error_iff]
    simp only [mem_refusals]
    constructor
    · rintro ⟨f, e, he, r, hr, hcollections, tag, htag, hf⟩
      exact ⟨e, he, r, hr, hcollections, tag, htag, f, hf⟩
    · rintro ⟨e, he, r, hr, hcollections, tag, htag, f, hf⟩
      exact ⟨f, e, he, r, hr, hcollections, tag, htag, hf⟩
  case first => exact fun f => hmeets.eq_error_iff
  case delivered =>
    intro hnone
    cases h : a.combineTagged lookup agg results with
    | error f => exact absurd ⟨f, h⟩ hnone
    | ok tables => exact ⟨tables, rfl, delivered_of_ok h⟩

def collecting : List (Realization Rat) :=
  ([[], [⟨0⟩], [⟨1⟩]] : List (List CollectionId)).zipIdx.map
    (fun c => ⟨c.2, ["s1"], .start 1, 1 / 3, .ofList c.1⟩)

def twiceListed : AssocIndex := .ofList [(⟨⟨1⟩, "A"⟩, [0, 1, 1, 2])]

/-- Results with tags that would be refused, the first of them under a key that lists no position. -/
def taggedResults : List (AssocKey × SortedMap String Int) :=
  [(⟨⟨1⟩, "A"⟩, .ofList [("col=00|ses=1", 7), ("col=01|ses=1", 5)]),
    (⟨⟨2⟩, "A"⟩, .ofList [("ses=1", 3)]), (⟨⟨1⟩, "A"⟩, .ofList [("rup=2", 3), ("ses=2", 3)])]

theorem combineTagged_delivers_twiceListed : ∃ a, ofParts .empty collecting twiceListed = .ok a ∧ a.Obtained ∧
    (∀ results, a.Delivers CollectionId.ofTag Int.sub results (a.combineTagged CollectionId.ofTag Int.sub results)) ∧
    (a.combineTagged CollectionId.ofTag Int.sub (taggedResults.take 2)).toOption.map (List.map SortedMap.toList) =
      some [[("col=00|ses=1", 7), ("col=01|ses=1", 5)], [("col=00|ses=1", 0)], [("col=01|ses=1", 5)]] ∧
    a.combineTagged CollectionId.ofTag Int.sub taggedResults = .error (.malformedTag "rup=2") := by
  have parts : ∃ a, ofParts .empty collecting twiceListed = .ok a ∧
      (a.combineTagged CollectionId.ofTag Int.sub (taggedResults.take 2)).toOption.map (List.map SortedMap.toList) =
        some [[("col=00|ses=1", 7), ("col=01|ses=1", 5)], [("col=00|ses=1", 0)], [("col=01|ses=1", 5)]] ∧
      a.combineTagged CollectionId.ofTag Int.sub taggedResults = .error (.malformedTag "rup=2") :=
    ⟨_, rfl, by decide +kernel, by decide +kernel⟩
  obtain ⟨a, ha, hdelivered, hrefused⟩ := parts
  have obtained : a.Obtained := .assembled _ _ _ ha
  exact ⟨a, ha, obtained, combineTagged_delivers obtained CollectionId.ofTag Int.sub, hdelivered, hrefused⟩

end Association
end SeismicHazard
