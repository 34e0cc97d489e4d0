import SeismicHazard.Proofs.Association.Delivery
import SeismicHazard.Proofs.Association.Partition
import SeismicHazard.Proofs.Association.ReverseIndex
/-!
# Bounds — no position is out of range

The questions about an association pass over a position without realization.  Their strict forms read the same lists and
break down there: at a position past the end, or at a range that does not lie within a list.  If all positions that an
association holds are within its realizations (`Bounded`), each strict form answers what the form that runs does
(`Bounded.answers`).  Both ways to make an association bound it: assembly refuses exactly what is out of range
(`ofParts_eq_ok`), and a build, which lists a position before its realization is there, gives nothing back if it ends in
between (`bounded_of_associateBy`).
-/
namespace SeismicHazard

variable {S W V : Type}

/-! ## Strict reading -/

def strictAt (l : List V) (i : Nat) : Except Abort V :=
  match l[i]? with
  | some v => .ok v
  | none => .error .crashed

/-- The members of a range; a range that does not lie within the list is a break-down. -/
def strictRange (l : List V) (first stop : Nat) : Except Abort (List V) :=
  if first ≤ stop ∧ stop ≤ l.length then .ok ((l.drop first).take (stop - first)) else .error .crashed

theorem strictAt_of_lt {l : List V} {i : Nat} (h : i < l.length) : strictAt l i = .ok l[i] := by
  rw [strictAt, List.getElem?_eq_getElem h]

namespace Association

/-! The questions in their strict form; each has the name of the one that it repeats. -/

def selectStrict (a : Association W) (positions : List Nat) : Except Abort (List (Realization W)) :=
  positions.mapM (strictAt a.realizations)

def getStrict (a : Association W) (k : AssocKey) : Except Abort (List (Realization W)) :=
  match a.index.get? k with
  | some positions => a.selectStrict positions
  | none => .ok []

def realizationsOfStrict (a : Association W) (model : Nat) : Except Abort (List (Realization W)) :=
  match a.byModel.get? model with
  | some (first, stop) => strictRange a.realizations first stop
  | none => .ok []

/-- Folds a value into the accumulated values at some positions, each of which must have one. -/
def scatterStrict (agg : V → V → V) (v : V) (positions : List Nat) (acc : List V) : Except Abort (List V) :=
  positions.foldlM (fun acc o => do return acc.set o (agg (← strictAt acc o) v)) acc

def combineStrict (a : Association W) (agg : V → V → V) (start : V) (results : List (AssocKey × V)) :
    Except Abort (List V) :=
  results.foldlM (fun acc r => scatterStrict agg r.2 (a.ordinals r.1) acc)
    (List.replicate a.realizations.length start)

def absorbEntryStrict (lookup : String → Except Failure CollectionId) (agg : V → V → V) (r : Realization W)
    (ordinal : Nat) (acc : List (SortedMap String V)) (e : String × V) : Except Abort (List (SortedMap String V)) := do
  if ← Abort.lift (accepts lookup r e.1) then return acc.set ordinal (foldTagged agg (← strictAt acc ordinal) e)
  else return acc

/-- Folds tagged values into the values of the realization at a position, both of which must be there. -/
def absorbAtStrict (a : Association W) (lookup : String → Except Failure CollectionId) (agg : V → V → V)
    (entries : List (String × V)) (acc : List (SortedMap String V)) (ordinal : Nat) :
    Except Abort (List (SortedMap String V)) := do
  let r ← strictAt a.realizations ordinal
  entries.foldlM (absorbEntryStrict lookup agg r ordinal) acc

def combineTaggedStrict (a : Association W) (lookup : String → Except Failure CollectionId) (agg : V → V → V)
    (results : List (AssocKey × SortedMap String V)) : Except Abort (List (SortedMap String V)) :=
  results.foldlM (fun acc r => (a.ordinals r.1).foldlM (a.absorbAtStrict lookup agg r.2.toList) acc)
    (List.replicate a.realizations.length .empty)

/-- The text of the realizations of a key; they are looked up only if they are written out. -/
def listTextStrict [Scalar W] (a : Association W) (positions : List Nat) : Except Abort String :=
  if listedAtMost < positions.length then .ok s!"{positions.length} realizations"
  else (a.selectStrict positions).map (fun rs => ", ".intercalate (rs.map Realization.text))

def textStrict [Scalar W] (a : Association W) : Except Abort String := do
  let lines ← a.index.toList.mapM (fun e => (a.listTextStrict e.2).map (fun t => s!"{e.1}: [" ++ t ++ "]\n"))
  return "<RlzsAssoc\n" ++ "".intercalate lines ++ ">"

/-! ## Bounded associations -/

/-- Realizations stand at the positions that are their numbers. -/
def Numbered (rs : List (Realization W)) : Prop := ∀ (i : Nat) (r : Realization W), rs[i]? = some r → r.ordinal = i

def ListsBelow (count : Nat) (index : AssocIndex) : Prop := ∀ e ∈ index.toList, ∀ o ∈ e.2, o < count

/-- The positions that an association holds are within its realizations. -/
structure Bounded (a : Association W) : Prop where
  numbered : Numbered a.realizations
  /-- The table of ground motion models has one row for each realization. -/
  rows : a.gsimByTrt.length = a.realizations.length
  row : ∀ (i : Nat) (r : Realization W), a.realizations[i]? = some r → a.gsimByTrt[i]? = some r.choice.choices
  listed : ListsBelow a.realizations.length a.index
  /-- The ranges of the models lie within the realizations. -/
  ranged : a.Ranged

/-- No question about an association breaks down: each strict form answers what the form that runs does. -/
structure Answers [Scalar W] (a : Association W) : Prop where
  get : ∀ k, a.getStrict k = .ok (a.get k)
  realizationsOf : ∀ model, a.realizationsOfStrict model = .ok (a.realizationsOf model)
  combine : ∀ {V : Type} (agg : V → V → V) (start : V) (results : List (AssocKey × V)),
    a.combineStrict agg start results = .ok (a.combine agg start results)
  /-- Combining tagged results can fail because of a tag, and in no other way. -/
  combineTagged : ∀ {V : Type} (lookup : String → Except Failure CollectionId) (agg : V → V → V)
    (results : List (AssocKey × SortedMap String V)),
    a.combineTaggedStrict lookup agg results = Abort.lift (a.combineTagged lookup agg results)
  text : a.textStrict = .ok a.text

theorem listsBelow_iff {count : Nat} {index : AssocIndex} :
    ListsBelow count index ↔ ∀ k positions, index.get? k = some positions → ∀ o ∈ positions, o < count := by
  constructor
  · exact fun h k positions hk => h (k, positions) (SortedMap.get?_eq_some.1 hk)
  · exact fun h e he => h e.1 e.2 (SortedMap.get?_eq_some.2 he)

theorem mem_ordinals_iff {a : Association W} {k : AssocKey} {o : Nat} :
    o ∈ a.ordinals k ↔ ∃ positions, a.index.get? k = some positions ∧ o ∈ positions := by
  rw [ordinals]
  cases a.index.get? k <;> simp

theorem Bounded.lt_of_mem_ordinals {a : Association W} (h : a.Bounded) {k : AssocKey} :
    ∀ o ∈ a.ordinals k, o < a.realizations.length := by
  intro o ho
  obtain ⟨positions, hk, ho⟩ := mem_ordinals_iff.1 ho
  exact listsBelow_iff.1 h.listed k positions hk o ho

/-- The rows of the table are what the realizations choose, in step. -/
def Tabled (a : Association W) : Prop := a.gsimByTrt = a.realizations.map (fun r => r.choice.choices)

theorem bounded_of_tabled {a : Association W} (numbered : Numbered a.realizations) (tabled : a.Tabled)
    (listed : ListsBelow a.realizations.length a.index) (ranged : a.Ranged) : a.Bounded := by
  refine ⟨numbered, ?_, fun i r hr => ?_, listed, ranged⟩
  · rw [tabled, List.length_map]
  · rw [tabled, List.getElem?_map, hr]
    rfl

/-! ## Answers -/

theorem selectStrict_eq (a : Association W) : ∀ {positions : List Nat}, (∀ o ∈ positions, o < a.realizations.length) →
    a.selectStrict positions = .ok (a.select positions)
  | [], _ => rfl
  | o :: positions, h => by
    have ho := h o (List.mem_cons_self ..)
    have ih := selectStrict_eq a fun o' ho' => h o' (List.mem_cons_of_mem _ ho')
    rw [selectStrict] at ih ⊢
    rw [List.mapM_cons, strictAt_of_lt ho, ih, select, select, List.filterMap_cons, List.getElem?_eq_getElem ho]
    rfl

theorem Bounded.getStrict_eq {a : Association W} (h : a.Bounded) (k : AssocKey) :
    a.getStrict k = .ok (a.get k) := by
  rw [getStrict, get, ordinals]
  cases hk : a.index.get? k with
  | none => rfl
  | some positions => exact a.selectStrict_eq (listsBelow_iff.1 h.listed k positions hk)

theorem Bounded.realizationsOfStrict_eq {a : Association W} (h : a.Bounded) (model : Nat) :
    a.realizationsOfStrict model = .ok (a.realizationsOf model) := by
  rw [realizationsOfStrict, realizationsOf]
  cases hr : a.byModel.get? model with
  | none => rfl
  | some r => exact if_pos (h.ranged model r hr)

/-- **Scattering changes values, not their number**, so positions that have a value keep it. -/
theorem endsAs_scatterStrict (agg : V → V → V) (v : V) {count : Nat} {positions : List Nat}
    (h : ∀ o ∈ positions, o < count) {acc : List V} (hacc : acc.length = count) :
    Outcome.EndsAs (fun acc => acc.length = count) (scatterStrict agg v positions acc)
      (.ok (scatter agg v positions acc)) := by
  refine Outcome.EndsAs.foldl (fun acc hlen o ho => Outcome.endsAs_ok ?_ ?_) hacc
  · have hlt : o < acc.length := hlen ▸ h o ho
    rw [strictAt_of_lt hlt, List.modify_eq_set_get _ hlt]
    rfl
  · rw [List.length_modify, hlen]

theorem Bounded.combineStrict_eq {a : Association W} (h : a.Bounded) (agg : V → V → V) (start : V)
    (results : List (AssocKey × V)) : a.combineStrict agg start results = .ok (a.combine agg start results) :=
  (Outcome.EndsAs.foldl (fun _ hlen _ _ => endsAs_scatterStrict agg _ h.lt_of_mem_ordinals hlen)
    List.length_replicate).1

section Tagged

variable {lookup : String → Except Failure CollectionId} {agg : V → V → V}

/-- **Entry by entry in the list of tables, or all of them in one table**: it comes to the same. -/
theorem foldlM_absorbEntryStrict (r : Realization W) {o : Nat} : ∀ (entries : List (String × V))
    {acc : List (SortedMap String V)} (ho : o < acc.length),
    entries.foldlM (absorbEntryStrict lookup agg r o) acc =
      Abort.lift ((absorb lookup agg r acc[o] entries).map (acc.set o))
  | [], acc, ho => congrArg Except.ok (List.set_getElem_self ho).symm
  | e :: entries, acc, ho => by
    rw [absorb, List.foldlM_cons, List.foldlM_cons, absorbEntryStrict]
    cases haccepts : accepts lookup r e.1 with
    | error f => rfl
    | ok takes =>
      cases takes with
      | false => exact foldlM_absorbEntryStrict r entries ho
      | true =>
        have hlen : o < (acc.set o (foldTagged agg acc[o] e)).length := by rwa [List.length_set]
        have hset : (acc.set o (foldTagged agg acc[o] e)).set o = acc.set o := funext fun _ => List.set_set _
        rw [strictAt_of_lt ho]
        -- what was written back is what the next entry reads, and is itself overwritten in the end
        refine (foldlM_absorbEntryStrict r entries hlen).trans ?_
        rw [List.getElem_set_self, hset]
        rfl

theorem endsAs_absorbAtStrict {a : Association W} {entries : List (String × V)} {acc : List (SortedMap String V)}
    (hlen : acc.length = a.realizations.length) {o : Nat} (ho : o < a.realizations.length) :
    Outcome.EndsAs (fun acc => acc.length = a.realizations.length) (a.absorbAtStrict lookup agg entries acc o)
      (a.absorbAt lookup agg entries acc o) := by
  have hacc : o < acc.length := hlen ▸ ho
  rw [absorbAtStrict, absorbAt, strictAt_of_lt ho, List.getElem?_eq_getElem ho, List.getElem?_eq_getElem hacc]
  refine ⟨foldlM_absorbEntryStrict _ entries hacc, fun acc' h => ?_⟩
  obtain ⟨table, -, rfl⟩ := Outcome.map_eq_ok.1 h
  rw [List.length_set, hlen]

end Tagged

theorem Bounded.combineTaggedStrict_eq {a : Association W} (h : a.Bounded)
    (lookup : String → Except Failure CollectionId) (agg : V → V → V)
    (results : List (AssocKey × SortedMap String V)) :
    a.combineTaggedStrict lookup agg results = Abort.lift (a.combineTagged lookup agg results) :=
  (Outcome.EndsAs.foldlM (fun _ hlen _ _ =>
    Outcome.EndsAs.foldlM (fun _ hlen o ho => endsAs_absorbAtStrict hlen (h.lt_of_mem_ordinals o ho)) hlen)
    List.length_replicate).1

section Text

variable [Scalar W]

theorem listTextStrict_eq (a : Association W) {positions : List Nat}
    (h : ∀ o ∈ positions, o < a.realizations.length) : a.listTextStrict positions = .ok (a.listText positions) := by
  rw [listTextStrict, listText]
  split
  · rfl
  · rw [a.selectStrict_eq h]
    rfl

theorem Bounded.textStrict_eq {a : Association W} (h : a.Bounded) : a.textStrict = .ok a.text := by
  have hlines := Outcome.mapM_of_forall₂ (f := fun e : AssocKey × List Nat =>
      (a.listTextStrict e.2).map (fun t => s!"{e.1}: [" ++ t ++ "]\n")) <|
    List.forall₂_map_right_iff.2 <| List.forall₂_same.2 fun e he => by
      rw [a.listTextStrict_eq (h.listed e he)]
      rfl
  rw [textStrict, hlines]
  rfl

theorem Bounded.answers {a : Association W} (h : a.Bounded) : a.Answers :=
  ⟨h.getStrict_eq, h.realizationsOfStrict_eq, h.combineStrict_eq, h.combineTaggedStrict_eq, h.textStrict_eq⟩

end Text

/-- Without a bound the two forms differ. -/
example : let a : Association Rat := { composition := .empty, index := .ofList [(⟨⟨1⟩, "A"⟩, [0])] }
    a.getStrict ⟨⟨1⟩, "A"⟩ = .error .crashed ∧ a.get ⟨⟨1⟩, "A"⟩ = [] := by decide +kernel

/-! ## Assembly -/

theorem misplaced?_eq_none {rs : List (Realization W)} : misplaced? rs = none ↔ Numbered rs := by
  rw [misplaced?, Option.map_eq_none_iff, List.find?_eq_none]
  simp only [decide_eq_true_eq, not_not]
  constructor
  · exact fun h i r hr => h (r, i) (List.mem_zipIdx_iff_getElem?.2 hr)
  · exact fun h p hp => h p.2 p.1 (List.mem_zipIdx_iff_getElem?.1 hp)

theorem dangling?_eq_none {count : Nat} {index : AssocIndex} :
    dangling? count index = none ↔ ListsBelow count index := by
  rw [dangling?, Option.map_eq_none_iff, List.find?_eq_none]
  simp only [List.any_eq_true, decide_eq_true_eq, not_exists, not_and, Nat.not_le]
  rfl

theorem ofParts_eq_ok {composition : Composition} {rs : List (Realization W)} {index : AssocIndex}
    {a : Association W} : ofParts composition rs index = .ok a ↔
      (Numbered rs ∧ ListsBelow rs.length index) ∧
        a = ⟨composition, index, rs, rs.map (fun r => r.choice.choices),
          if rs.isEmpty then .empty else SortedMap.empty.insert 0 (0, rs.length)⟩ := by
  rw [← misplaced?_eq_none, ← dangling?_eq_none, ofParts]
  cases misplaced? rs with
  | some fault => simp
  | none =>
    cases dangling? rs.length index with
    | some fault => simp
    | none =>
      constructor
      · rintro ⟨⟩
        exact ⟨⟨rfl, rfl⟩, rfl⟩
      · rintro ⟨-, rfl⟩
        rfl

theorem bounded_of_ofParts {composition : Composition} {rs : List (Realization W)} {index : AssocIndex}
    {a : Association W} (h : ofParts composition rs index = .ok a) : a.Bounded := by
  obtain ⟨⟨hnumbered, hlisted⟩, rfl⟩ := ofParts_eq_ok.1 h
  refine bounded_of_tabled hnumbered rfl hlisted fun i r hi => ?_
  dsimp only at hi ⊢
  split at hi
  · cases hi
  · rw [SortedMap.get?_insert] at hi
    split at hi
    · cases hi
      exact ⟨Nat.zero_le _, Nat.le_refl _⟩
    · cases hi

theorem bounded_empty (composition : Composition) : (empty composition : Association W).Bounded := by
  have h : ofParts composition ([] : List (Realization W)) .empty = .ok (empty composition) := rfl
  exact bounded_of_ofParts h

/-! ## Builds -/

theorem Bounded.reweight {a : Association W} (h : a.Bounded) (f : W → W) : (a.reweight f).Bounded := by
  have hlen : (a.reweight f).realizations.length = a.realizations.length := List.length_map _
  have hreweighted : ∀ (i : Nat) r, (a.reweight f).realizations[i]? = some r →
      ∃ r' : Realization W, a.realizations[i]? = some r' ∧ r = { r' with weight := f r'.weight } := by
    intro i r hr
    obtain ⟨r', hr', rfl⟩ := Option.map_eq_some_iff.1 (List.getElem?_map.symm.trans hr)
    exact ⟨r', hr', rfl⟩
  refine ⟨fun i r hr => ?_, h.rows.trans hlen.symm, fun i r hr => ?_, hlen ▸ h.listed, fun i r hr =>
    hlen ▸ h.ranged i r hr⟩
  · obtain ⟨r', hr', rfl⟩ := hreweighted i r hr
    exact h.numbered i r' hr'
  · obtain ⟨r', hr', rfl⟩ := hreweighted i r hr
    exact h.row i r' hr'

variable [Scalar W]

theorem BuiltFrom.numbered {os : List (Origin S W)} {a : Association W} (h : a.BuiltFrom os) :
    Numbered a.realizations := by
  intro i r hr
  rw [h.realizations, List.getElem?_map] at hr
  obtain ⟨o, ho, rfl⟩ := Option.map_eq_some_iff.1 hr
  rw [List.getElem?_zipIdx] at ho
  obtain ⟨_, -, rfl⟩ := Option.map_eq_some_iff.1 ho
  exact Nat.zero_add i

theorem BuiltFrom.tabled_realizations {os : List (Origin S W)} {a : Association W} (h : a.BuiltFrom os) : a.Tabled := by
  have hfst : os.map (fun o => o.path.choices) = (os.zipIdx.map Prod.fst).map (fun o => o.path.choices) := by
    rw [List.zipIdx_map_fst]
  rw [Tabled, h.tabled, h.realizations, List.map_map, hfst, List.map_map]
  rfl

theorem BuiltFrom.listsBelow {os : List (Origin S W)} {a : Association W} (h : a.BuiltFrom os) :
    ListsBelow a.realizations.length a.index :=
  listsBelow_iff.2 fun _ positions hk _ ho => h.lt_of_mem_ordinals (mem_ordinals_iff.2 ⟨positions, hk, ho⟩)

/-- **A model notes the range of what it added**, in place of any range that its number had. -/
theorem ranged_addModel {sampling : SamplingSettings} {m : SourceModel S W} {a a' : Association W} (ha : a.Ranged)
    (h : (addModel sampling m a).2 = .ok a') : a'.Ranged := by
  rcases addModel_ok h with ⟨-, rfl⟩ | ⟨ps, b, -, -, hb, rfl⟩
  · exact ha
  · obtain ⟨new, hnew, hby, -⟩ := addPaths_extends m ps 0 m.groups a b hb
    exact ha.noteModel hnew hby m.ordinal

theorem ranged_addModels (sampling : SamplingSettings) (weight : SourceGroup S → W) :
    ∀ (ms : List (SourceModel S W)) (a a' : Association W), a.Ranged → (addModels sampling weight ms a).2 = .ok a' →
    a'.Ranged
  | [], a, _, ha, h => by
    cases h
    exact ha
  | m :: ms, a, a', ha, h => by
    rw [addModels] at h
    dsimp only at h
    split at h
    · cases h
    · rename_i b hb
      exact ranged_addModels sampling weight ms b a' (ranged_addModel ha hb) h

/-- The rows that a model adds to the table of ground motion models: what its paths choose, once its tree is reduced. -/
def rowsOf (sampling : SamplingSettings) (weight : SourceGroup S → W) (m : SourceModel S W) :
    Except Abort (List (SortedMap String String)) :=
  ((m.reduceToLive weight).paths sampling).map (List.map ChoicePath.choices)

theorem gsimByTrt_of_contributions {cs : List (Contribution S W)} {a : Association W}
    (h : a.BuiltFrom (cs.flatMap Contribution.origins)) :
    a.gsimByTrt = (cs.map (fun x => x.paths.map ChoicePath.choices)).flatten := by
  have hpaths : ∀ x : Contribution S W, x.origins.map Origin.path = x.paths := fun x => by
    rw [Contribution.origins, SourceModel.originsFrom, List.map_map]
    exact List.zipIdx_map_fst 0 x.paths
  have hrows : a.gsimByTrt = ((cs.flatMap Contribution.origins).map Origin.path).map ChoicePath.choices := by
    rw [h.tabled, List.map_map]
    rfl
  rw [hrows, List.map_flatMap, List.map_flatMap, List.flatMap]
  simp only [hpaths]

end Association

namespace Composite

variable [Scalar W]

/-- **A built association is bounded**, and the rows of its table are those that its models add, in the order in which
they are taken. -/
theorem bounded_of_associateBy {weight : SourceGroup S → W} {c : Composite S W} {a : Association W}
    (h : (c.associateBy weight).2 = .ok a) : a.Bounded ∧
      (((byOrdinal c.models).map Prod.fst).mapM (Association.rowsOf c.sampling weight)).map List.flatten =
        .ok a.gsimByTrt := by
  obtain ⟨b, f, rfl, hb⟩ := associateBy_added h
  obtain ⟨cs, hcs, hbuilt, -⟩ := Association.exists_contributions hb
  -- models may share a number, so the ranges are followed by themselves and not through the origins
  have hranged : b.Ranged := Association.ranged_addModels c.sampling weight _ _ b
    (Association.bounded_empty c.composition).ranged hb
  refine ⟨(Association.bounded_of_tabled hbuilt.numbered hbuilt.tabled_realizations hbuilt.listsBelow hranged).reweight
    f, ?_⟩
  change _ = Except.ok b.gsimByTrt
  rw [Association.gsimByTrt_of_contributions hbuilt]
  refine Outcome.map_eq_ok.2 ⟨_, Outcome.mapM_of_forall₂ (List.forall₂_map_right_iff.2 (hcs.imp fun m x hx => ?_)), rfl⟩
  exact Outcome.map_eq_ok.2 ⟨x.paths, hx.1 ▸ hx.2, rfl⟩

end Composite

namespace Association

variable [Scalar W]

/-- **No association has a position out of range, and no question about it breaks down.**  This is said of the empty
association, of every association that is assembled from parts, which is refused exactly if a realization does not stand
at its number or the index lists a position without realization, and of every association that is built, whatever the
numbers, the identifiers and the trees of its models are. -/
theorem never_out_of_range :
    (∀ composition, (empty composition : Association W).Bounded ∧ (empty composition : Association W).Answers) ∧
    (∀ (composition : Composition) (rs : List (Realization W)) (index : AssocIndex),
      ((∃ a, ofParts composition rs index = .ok a) ↔ Numbered rs ∧ ListsBelow rs.length index) ∧
      ∀ a, ofParts composition rs index = .ok a → a.realizations = rs ∧ a.index = index ∧ a.Bounded ∧ a.Answers) ∧
    ∀ {S : Type} (weight : SourceGroup S → W) (c : Composite S W) (a : Association W),
      (c.associateBy weight).2 = .ok a → a.Bounded ∧ a.Answers ∧
        (((Composite.byOrdinal c.models).map Prod.fst).mapM (rowsOf c.sampling weight)).map List.flatten =
          .ok a.gsimByTrt := by
  refine ⟨fun composition => ?_, fun composition rs index => ⟨?_, fun a h => ?_⟩, fun weight c a h => ?_⟩
  · exact ⟨bounded_empty composition, (bounded_empty composition).answers⟩
  · constructor
    · rintro ⟨a, h⟩
      exact (ofParts_eq_ok.1 h).1
    · exact fun h => ⟨_, ofParts_eq_ok.2 ⟨h, rfl⟩⟩
  · have hbounded := bounded_of_ofParts h
    obtain ⟨-, rfl⟩ := ofParts_eq_ok.1 h
    exact ⟨rfl, rfl, hbounded, hbounded.answers⟩
  · obtain ⟨hbounded, hrows⟩ := Composite.bounded_of_associateBy h
    exact ⟨hbounded, hbounded.answers, hrows⟩

/-- Two models with one number, one group and one tree, the weights of which add up to too much. -/
def colliding : Composite Unit Rat :=
  let tree : BranchSetTree Rat := ⟨.ofList [("Active", [⟨"b1", "A", 1 / 4⟩, ⟨"b2", "B", 5 / 4⟩])]⟩
  .ofModels [
    ⟨"first", 1 / 2, ["s1"], [{ id := ⟨1⟩, trt := "Active", ruptures := 4 }], tree, 3, 2⟩,
    ⟨"second", 1 / 2, ["s2"], [{ id := ⟨1⟩, trt := "Active", ruptures := 1 }], tree, 3, 2⟩] { samples := 4 }

theorem never_out_of_range_colliding : ∃ a, (colliding.associateBy Composite.ruptureCount).2 = .ok a ∧
    a.Bounded ∧ a.Answers ∧ a.byModel.toList = [(3, 2, 4)] ∧
    a.index.toList = [(⟨⟨1⟩, "A"⟩, [1, 3]), (⟨⟨1⟩, "B"⟩, [0, 2])] ∧
    ∃ b, ofParts a.composition a.realizations a.index = .ok b ∧ b.Answers := by
  have parts : (colliding.associateBy Composite.ruptureCount).2.toOption.map (fun a =>
      (a.byModel.toList, a.index.toList)) =
        some ([(3, 2, 4)], [(⟨⟨1⟩, "A"⟩, [1, 3]), (⟨⟨1⟩, "B"⟩, [0, 2])]) := by
    decide +kernel
  obtain ⟨a, ha, hparts⟩ := Outcome.map_toOption_eq_some.1 parts
  obtain ⟨hmodels, hindex⟩ := Prod.mk.inj hparts
  obtain ⟨-, hassembled, hbuilt⟩ := never_out_of_range (W := Rat)
  obtain ⟨hbounded, hanswers, -⟩ := hbuilt Composite.ruptureCount colliding a ha
  obtain ⟨haccepts, hbound⟩ := hassembled a.composition a.realizations a.index
  obtain ⟨b, hb⟩ := haccepts.2 ⟨hbounded.numbered, hbounded.listed⟩
  obtain ⟨-, -, -, hb'⟩ := hbound b hb
  exact ⟨a, ha, hbounded, hanswers, hmodels, hindex, b, hb, hb'⟩

end Association
end SeismicHazard
