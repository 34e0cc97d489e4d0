import SeismicHazard.Proofs.Association.Delivery
import SeismicHazard.Proofs.Association.Folding
import Mathlib.Data.List.Perm.Basic
/-!
# Reordering — combinations do not depend on the order of the results

If an aggregation takes its values in any order, so does a combination: what reaches a position is the same up to order
(`reaching_perm`), and so is what a tag is given there (`given_perm`).  Tags are refused no matter where they stand, so
that a combination of tagged results fails in every order or in none (`order_irrelevant`).
-/
namespace SeismicHazard
namespace Association

variable {W V : Type}

/-! ## Single values -/

theorem reaching_perm (a : Association W) {results results' : List (AssocKey × V)} (h : results.Perm results')
    (n : Nat) : (a.reaching results n).Perm (a.reaching results' n) := h.flatMap_right _

theorem combine_perm (a : Association W) (agg : V → V → V) [Std.Commutative agg] [Std.Associative agg] (start : V)
    {results results' : List (AssocKey × V)} (h : results.Perm results') :
    a.combine agg start results = a.combine agg start results' := by
  refine List.ext_getElem? fun n => ?_
  rw [combine, combine, getElem?_foldl_scatter, getElem?_foldl_scatter]
  congr 1
  funext x
  exact (reaching_perm a h n).foldl_eq x

/-! ## Tagged values -/

theorem gather_perm (agg : V → V → V) [Std.Commutative agg] [Std.Associative agg] {vs vs' : List V} (h : vs.Perm vs')
    (old : Option V) : gather agg old vs = gather agg old vs' := by
  refine h.foldl_eq' (fun x _ y _ old => ?_) old
  cases old with
  | none => exact congrArg some (Std.Commutative.comm x y)
  | some v =>
    have hswap : agg (agg v x) y = agg (agg v y) x := RightCommutative.right_comm v x y
    exact congrArg some hswap

theorem ext_valueAt {tables tables' : List (SortedMap String V)} (hlen : tables.length = tables'.length)
    (h : ∀ n tag, valueAt tables n tag = valueAt tables' n tag) : tables = tables' := by
  refine List.ext_getElem hlen fun n hn hn' => SortedMap.ext_get? fun tag => ?_
  have htag := h n tag
  rwa [valueAt, valueAt, List.getElem?_eq_getElem hn, List.getElem?_eq_getElem hn'] at htag

variable {lookup : String → Except Failure CollectionId} {results results' : List (AssocKey × SortedMap String V)}

theorem given_perm (a : Association W) (h : results.Perm results') (n : Nat) (tag : String) :
    (a.given lookup results n tag).Perm (a.given lookup results' n tag) := h.flatMap_right _

theorem refusals_perm (a : Association W) (h : results.Perm results') :
    (a.refusals lookup results).Perm (a.refusals lookup results') := h.flatMap_right _

theorem tables_eq_of_perm {a : Association W} {agg : V → V → V} [Std.Commutative agg] [Std.Associative agg]
    (h : results.Perm results') {tables tables' : List (SortedMap String V)}
    (hok : a.combineTagged lookup agg results = .ok tables) (hok' : a.combineTagged lookup agg results' = .ok tables') :
    tables = tables' := by
  obtain ⟨hlen, hvalues⟩ := combineTagged_ok hok
  obtain ⟨hlen', hvalues'⟩ := combineTagged_ok hok'
  refine ext_valueAt (hlen.trans hlen'.symm) fun n tag => ?_
  rw [hvalues, hvalues', gather_perm agg (given_perm a h n tag)]

theorem fails_iff_of_perm (a : Association W) (lookup : String → Except Failure CollectionId) (agg : V → V → V)
    (h : results.Perm results') :
    (∃ f, a.combineTagged lookup agg results = .error f) ↔ ∃ f, a.combineTagged lookup agg results' = .error f := by
  rw [(meets_combineTagged a lookup agg results).exists_error_iff,
    (meets_combineTagged a lookup agg results').exists_error_iff]
  exact exists_congr fun f => (refusals_perm a h).mem_iff

/-! ## Both -/

structure OrderIrrelevant (a : Association W) (agg : V → V → V) : Prop where
  /-- Every position that a key lists has a realization, so no result is passed over. -/
  listed : ∀ k, ∀ n ∈ a.ordinals k, n < a.realizations.length
  combined : ∀ start results results', results.Perm results' →
    a.combine agg start results = a.combine agg start results'
  /-- Tagged results come to the same tables in both orders, or both orders fail, maybe with different tags. -/
  tagged : ∀ lookup results results', results.Perm results' →
    (∃ tables, a.combineTagged lookup agg results = .ok tables ∧ a.combineTagged lookup agg results' = .ok tables) ∨
      ∃ f f', a.combineTagged lookup agg results = .error f ∧ a.combineTagged lookup agg results' = .error f'

/-- **The order of the results is irrelevant** to an aggregation that is commutative and associative. -/
theorem order_irrelevant [Scalar W] {a : Association W} (obtained : a.Obtained) (agg : V → V → V)
    [Std.Commutative agg] [Std.Associative agg] : a.OrderIrrelevant agg := by
  constructor
  case listed => exact fun k n hn => obtained.lt_of_mem_ordinals hn
  case combined => exact fun start results results' h => combine_perm a agg start h
  case tagged =>
    intro lookup results results' h
    have hfails := fails_iff_of_perm a lookup agg h
    cases hok : a.combineTagged lookup agg results with
    | error f =>
      obtain ⟨f', hf'⟩ := hfails.1 ⟨f, hok⟩
      exact Or.inr ⟨f, f', rfl, hf'⟩
    | ok tables =>
      cases hok' : a.combineTagged lookup agg results' with
      | error f' =>
        obtain ⟨f, hf⟩ := hfails.2 ⟨f', hok'⟩
        cases hok.symm.trans hf
      | ok tables' => exact Or.inl ⟨tables, rfl, by rw [tables_eq_of_perm h hok hok']⟩

def doubtfulResults : List (AssocKey × SortedMap String Int) :=
  [(⟨⟨1⟩, "A"⟩, .ofList [("col=00|ses=1", 7), ("col=01|ses=1", 5)]), (⟨⟨1⟩, "A"⟩, .ofList [("col=01|ses=1", -2)]),
    (⟨⟨1⟩, "A"⟩, .ofList [("rup=2", 3)]), (⟨⟨1⟩, "A"⟩, .ofList [("ses=2", 3)])]

theorem order_irrelevant_doubtful : ∃ a, ofParts .empty collecting twiceListed = .ok a ∧ a.Obtained ∧
    a.OrderIrrelevant (fun x y : Int => x + y) ∧
    (∀ results ∈ [doubtfulResults.take 2, (doubtfulResults.take 2).reverse],
      (a.combineTagged CollectionId.ofTag (· + ·) results).toOption.map (List.map SortedMap.toList) =
        some [[("col=00|ses=1", 7), ("col=01|ses=1", 3)], [("col=00|ses=1", 14)], [("col=01|ses=1", 3)]]) ∧
    a.combineTagged CollectionId.ofTag (· + ·) doubtfulResults = .error (.malformedTag "rup=2") ∧
    a.combineTagged CollectionId.ofTag (· + ·) doubtfulResults.reverse = .error (.malformedTag "ses=2") := by
  have parts : ∃ a, ofParts .empty collecting twiceListed = .ok a ∧
      (∀ results ∈ [doubtfulResults.take 2, (doubtfulResults.take 2).reverse],
        (a.combineTagged CollectionId.ofTag (· + ·) results).toOption.map (List.map SortedMap.toList) =
          some [[("col=00|ses=1", 7), ("col=01|ses=1", 3)], [("col=00|ses=1", 14)], [("col=01|ses=1", 3)]]) ∧
      a.combineTagged CollectionId.ofTag (· + ·) doubtfulResults = .error (.malformedTag "rup=2") ∧
      a.combineTagged CollectionId.ofTag (· + ·) doubtfulResults.reverse = .error (.malformedTag "ses=2") :=
    ⟨_, rfl, by decide +kernel, by decide +kernel, by decide +kernel⟩
  obtain ⟨a, ha, hvalues⟩ := parts
  have obtained : a.Obtained := .assembled _ _ _ ha
  exact ⟨a, ha, obtained, order_irrelevant obtained (fun x y : Int => x + y), hvalues⟩

end Association
end SeismicHazard
