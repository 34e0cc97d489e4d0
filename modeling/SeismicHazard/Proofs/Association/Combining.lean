import SeismicHazard.Association.Combine
import SeismicHazard.Proofs.Outcome
import SeismicHazard.Proofs.Pairing
/-!
# Combining — which tagged values reach a realization

Combining tagged results folds entries into a map, does so at the listed positions, and for every result in turn.  On
each level the value of a tag at a position only gathers more values (`foldlM_gather`): those of the results whose key
lists the position, as long as the realization there takes the tag (`combineTagged_ok`).  If all tags can be looked up,
the combination comes to a value (`exists_combineTagged`).
-/
namespace SeismicHazard
namespace Association

variable {W V : Type}

/-- The value of a tag after more values, in order; the first of all is taken as it is. -/
def gather (agg : V → V → V) (old : Option V) (vs : List V) : Option V :=
  vs.foldl (fun old v => some (old.elim v (fun x => agg x v))) old

def valueAt (tables : List (SortedMap String V)) (n : Nat) (tag : String) : Option V :=
  (tables[n]?).bind (fun table => table.get? tag)

def admits (lookup : String → Except Failure CollectionId) (r : Realization W) (tag : String) : Bool :=
  (accepts lookup r tag).toOption.getD false

/-- The value of a tag in a table, for the realization at a position: none if it does not take the tag. -/
def offered (a : Association W) (lookup : String → Except Failure CollectionId) (table : SortedMap String V) (n : Nat)
    (tag : String) : List V :=
  if (a.realizations[n]?).any (fun r => admits lookup r tag) then (table.get? tag).toList else []

/-- The values that results give to the realization at a position, in order, once for each time that they list it. -/
def given (a : Association W) (lookup : String → Except Failure CollectionId)
    (results : List (AssocKey × SortedMap String V)) (n : Nat) (tag : String) : List V :=
  results.flatMap (fun e => (a.ordinals e.1).flatMap (fun o => if o = n then a.offered lookup e.2 n tag else []))

def takes (a : Association W) (lookup : String → Except Failure CollectionId) (k : AssocKey) (tag : String)
    (n : Nat) : Bool := decide (n ∈ a.ordinals k) && (a.realizations[n]?).any (fun r => admits lookup r tag)

/-! ## Gathering -/

theorem gather_append (agg : V → V → V) (old : Option V) (vs vs' : List V) :
    gather agg old (vs ++ vs') = gather agg (gather agg old vs) vs' := List.foldl_append

theorem foldlM_gather {α β ε : Type} (agg : V → V → V) {f : β → α → Except ε β} (value : β → Option V)
    (new : α → List V) (inv : β → Prop)
    (step : ∀ b a b', inv b → f b a = .ok b' → inv b' ∧ value b' = gather agg (value b) (new a)) :
    ∀ {l : List α} {b r : β}, inv b → l.foldlM f b = .ok r → inv r ∧ value r = gather agg (value b) (l.flatMap new)
  | [], _, _, hb, h => by
    cases h
    exact ⟨hb, rfl⟩
  | a :: l, b, r, hb, h => by
    rw [List.foldlM_cons] at h
    obtain ⟨b', hb', h⟩ := Outcome.bind_eq_ok.1 h
    obtain ⟨hinv, hvalue⟩ := step b a b' hb hb'
    obtain ⟨hr, hall⟩ := foldlM_gather agg value new inv step hinv h
    refine ⟨hr, ?_⟩
    rw [hall, hvalue, List.flatMap_cons, gather_append]

/-! ## One table -/

variable {lookup : String → Except Failure CollectionId} {agg : V → V → V}

theorem get?_foldTagged (table : SortedMap String V) (e : String × V) (tag : String) :
    (foldTagged agg table e).get? tag = gather agg (table.get? tag) (if e.1 = tag then [e.2] else []) := by
  rw [foldTagged, SortedMap.get?_update]
  by_cases h : e.1 = tag
  · subst h
    simp [gather]
  · rw [if_neg h, if_neg fun hc => h (Std.LawfulEqCmp.eq_of_compare hc).symm]
    rfl

theorem get?_absorb {r : Realization W} {old table new : SortedMap String V}
    (h : absorb lookup agg r old table.toList = .ok new) (tag : String) :
    new.get? tag = gather agg (old.get? tag) (if admits lookup r tag then (table.get? tag).toList else []) := by
  have hall := (foldlM_gather agg (fun t => t.get? tag)
    (fun e => if admits lookup r tag then (if e.1 = tag then [e.2] else []) else []) (fun _ => True)
    (fun t e t' _ ht => ?_) trivial h).2
  · rw [hall]
    congr 1
    split
    · exact SortedMap.flatMap_toList table tag
    · simp
  · obtain ⟨b, hb, ht⟩ := Outcome.bind_eq_ok.1 ht
    cases ht
    refine ⟨trivial, ?_⟩
    by_cases he : e.1 = tag
    · have hadmits : admits lookup r tag = b := by
        rw [admits, ← he, hb]
        rfl
      rw [hadmits]
      cases b with
      | false => rfl
      | true => exact get?_foldTagged t e tag
    · rw [if_neg he, ite_self]
      cases b with
      | false => rfl
      | true =>
        refine (get?_foldTagged t e tag).trans ?_
        rw [if_neg he]

/-! ## All positions -/

theorem absorbAt_ok {a : Association W} {table : SortedMap String V} {tables tables' : List (SortedMap String V)}
    (hlen : tables.length = a.realizations.length) {o : Nat}
    (h : a.absorbAt lookup agg table.toList tables o = .ok tables') (n : Nat) (tag : String) :
    tables'.length = a.realizations.length ∧ valueAt tables' n tag =
      gather agg (valueAt tables n tag) (if o = n then a.offered lookup table n tag else []) := by
  unfold absorbAt at h
  cases hr : a.realizations[o]? with
  | none =>
    rw [hr] at h
    cases h
    refine ⟨hlen, ?_⟩
    split
    · rename_i hon
      rw [offered, ← hon, hr]
      rfl
    · rfl
  | some r =>
    have ho : o < tables.length := hlen ▸ (List.getElem?_eq_some_iff.1 hr).1
    rw [hr, List.getElem?_eq_getElem ho] at h
    obtain ⟨new, hnew, rfl⟩ := Outcome.map_eq_ok.1 h
    refine ⟨by rw [List.length_set, hlen], ?_⟩
    by_cases hon : o = n
    · subst hon
      rw [if_pos rfl, offered, hr, valueAt, valueAt, List.getElem?_set_self ho, List.getElem?_eq_getElem ho]
      exact get?_absorb hnew tag
    · rw [if_neg hon, valueAt, List.getElem?_set_ne hon]
      rfl

theorem foldlM_absorbAt {a : Association W} {table : SortedMap String V} {positions : List Nat}
    {tables tables' : List (SortedMap String V)} (hlen : tables.length = a.realizations.length)
    (h : positions.foldlM (a.absorbAt lookup agg table.toList) tables = .ok tables') (n : Nat) (tag : String) :
    tables'.length = a.realizations.length ∧ valueAt tables' n tag = gather agg (valueAt tables n tag)
      (positions.flatMap (fun o => if o = n then a.offered lookup table n tag else [])) :=
  foldlM_gather agg (fun t => valueAt t n tag) (fun o => if o = n then a.offered lookup table n tag else [])
    (fun t => t.length = a.realizations.length) (fun _ _ _ hlen h => absorbAt_ok hlen h n tag) hlen h

theorem combineTagged_ok {a : Association W} {results : List (AssocKey × SortedMap String V)}
    {tables : List (SortedMap String V)} (h : a.combineTagged lookup agg results = .ok tables) :
    tables.length = a.realizations.length ∧
      ∀ n tag, valueAt tables n tag = gather agg none (a.given lookup results n tag) := by
  have hstart : ∀ n tag, valueAt (List.replicate a.realizations.length (.empty : SortedMap String V)) n tag = none := by
    intro n tag
    rw [valueAt, List.getElem?_replicate]
    split <;> rfl
  have hall := fun n tag => foldlM_gather agg (fun t => valueAt t n tag)
    (fun e : AssocKey × SortedMap String V =>
      (a.ordinals e.1).flatMap (fun o => if o = n then a.offered lookup e.2 n tag else []))
    (fun t => t.length = a.realizations.length) (fun _ _ _ hlen h => foldlM_absorbAt hlen h n tag)
    List.length_replicate h
  refine ⟨(hall 0 "").1, fun n tag => ?_⟩
  rw [(hall n tag).2, hstart]
  rfl

theorem admits_eq {r : Realization W} {tag : String} {col : CollectionId} (htag : lookup tag = .ok col)
    (hr : r.collections.isEmpty = false) : admits lookup r tag = r.collections.contains col := by
  rw [admits, accepts, hr, htag]
  rfl

/-- **A result is given once** to each realization that takes it, if no key lists a position twice. -/
theorem given_eq {a : Association W} (h : ∀ k, (a.ordinals k).Nodup)
    (results : List (AssocKey × SortedMap String V)) (n : Nat) (tag : String) : a.given lookup results n tag =
      results.flatMap (fun e => if a.takes lookup e.1 tag n then (e.2.get? tag).toList else []) := by
  refine List.flatMap_congr fun e _ => ?_
  rw [flatMap_ite_of_nodup (h e.1), offered, takes]
  by_cases hn : n ∈ a.ordinals e.1 <;> simp [hn]

theorem exists_combineTagged (a : Association W) {results : List (AssocKey × SortedMap String V)}
    (h : ∀ e ∈ results, ∀ tag ∈ e.2.keys, ∃ col, lookup tag = .ok col) :
    ∃ tables, a.combineTagged lookup agg results = .ok tables := by
  have haccepts : ∀ (r : Realization W) (tag : String), (∃ col, lookup tag = .ok col) →
      ∃ b, accepts lookup r tag = .ok b := by
    rintro r tag ⟨col, hcol⟩
    unfold accepts
    split
    · exact ⟨true, rfl⟩
    · rw [hcol]
      exact ⟨_, rfl⟩
  refine Outcome.exists_foldlM (fun e he tables => Outcome.exists_foldlM (fun o _ tables => ?_) tables) _
  unfold absorbAt
  split
  · rename_i r table _ _
    obtain ⟨new, hnew⟩ : ∃ new, absorb lookup agg r table e.2.toList = .ok new := by
      refine Outcome.exists_foldlM (fun v hv table => ?_) _
      obtain ⟨b, hb⟩ := haccepts r v.1 (h e he v.1 (List.mem_map_of_mem hv))
      rw [hb]
      exact ⟨_, rfl⟩
    rw [hnew]
    exact ⟨_, rfl⟩
  · exact ⟨_, rfl⟩

end Association
end SeismicHazard
