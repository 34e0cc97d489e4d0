import SeismicHazard.Number.Natural
/-!
# Identifiers — groups, collections and the keys made of them

Groups and collections are numbered.  A group identifier joins results to the groups they were computed for; a
collection identifier names the results of one draw of an oversampled model.  Both are ordered by number, and the two
kinds of key that contain a group are ordered by group first.
-/
namespace SeismicHazard

/-- The number of a source group; zero means that none was assigned. -/
structure GroupId where
  val : Nat
  deriving DecidableEq, Repr, Inhabited

/-- The number of a collection: one for each group and draw of an oversampled model. -/
structure CollectionId where
  val : Nat
  deriving DecidableEq, Repr, Inhabited

/-- Identifiers are below this bound wherever they are read. -/
def identifierBound : Nat := twoTo 32

structure DrawKey where
  group : GroupId
  draw : Nat
  deriving DecidableEq, Repr, Inhabited

structure AssocKey where
  group : GroupId
  gsim : String
  deriving DecidableEq, Repr, Inhabited

instance : ToString GroupId := ⟨fun g => toString g.val⟩

instance : ToString CollectionId := ⟨fun c => toString c.val⟩

instance : ToString AssocKey := ⟨fun k => toString k.group ++ "," ++ k.gsim⟩

/-! ## Order -/

instance : Ord GroupId := ⟨compareOn GroupId.val⟩

instance : Ord CollectionId := ⟨compareOn CollectionId.val⟩

instance : Ord DrawKey := ⟨compareLex (compareOn DrawKey.group) (compareOn DrawKey.draw)⟩

instance : Ord AssocKey := ⟨compareLex (compareOn AssocKey.group) (compareOn AssocKey.gsim)⟩

instance : Std.TransOrd GroupId := inferInstanceAs (Std.TransCmp (compareOn GroupId.val))

instance : Std.TransOrd CollectionId := inferInstanceAs (Std.TransCmp (compareOn CollectionId.val))

instance : Std.TransOrd DrawKey :=
  inferInstanceAs (Std.TransCmp (compareLex (compareOn DrawKey.group) (compareOn DrawKey.draw)))

instance : Std.TransOrd AssocKey :=
  inferInstanceAs (Std.TransCmp (compareLex (compareOn AssocKey.group) (compareOn AssocKey.gsim)))

instance : Std.LawfulEqOrd GroupId where
  compare_self := Std.ReflCmp.compare_self
  eq_of_compare {a b} h := by
    have hv : compare a.val b.val = .eq := h
    have : a.val = b.val := Std.LawfulEqCmp.eq_of_compare hv
    cases a; cases b; simp_all

instance : Std.LawfulEqOrd CollectionId where
  compare_self := Std.ReflCmp.compare_self
  eq_of_compare {a b} h := by
    have hv : compare a.val b.val = .eq := h
    have : a.val = b.val := Std.LawfulEqCmp.eq_of_compare hv
    cases a; cases b; simp_all

instance : Std.LawfulEqOrd DrawKey where
  compare_self := Std.ReflCmp.compare_self
  eq_of_compare {a b} h := by
    have h' : (compare a.group b.group).then (compare a.draw b.draw) = .eq := h
    rw [Ordering.then_eq_eq] at h'
    have h1 : a.group = b.group := Std.LawfulEqCmp.eq_of_compare h'.1
    have h2 : a.draw = b.draw := Std.LawfulEqCmp.eq_of_compare h'.2
    cases a; cases b; simp_all

instance : Std.LawfulEqOrd AssocKey where
  compare_self := Std.ReflCmp.compare_self
  eq_of_compare {a b} h := by
    have h' : (compare a.group b.group).then (compare a.gsim b.gsim) = .eq := h
    rw [Ordering.then_eq_eq] at h'
    have h1 : a.group = b.group := Std.LawfulEqCmp.eq_of_compare h'.1
    have h2 : a.gsim = b.gsim := Std.LawfulEqCmp.eq_of_compare h'.2
    cases a; cases b; simp_all

end SeismicHazard
