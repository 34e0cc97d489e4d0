/-!
# SortedMap — finite maps kept in key order

A map is the list of its entries in strictly increasing key order, and the order is part of the type.  Lookup, insertion
and erasure walk the list.  The main statements say what each operation does to the lookup (`get?_insert`,
`get?_update`, `get?_filter`, `get?_erase`) and that the lookup determines the map (`ext_get?`).
-/
namespace SeismicHazard

/-- A finite map from `κ` to `ν`: entries in strictly increasing key order. -/
structure SortedMap (κ : Type) (ν : Type) [Ord κ] where
  entries : List (κ × ν)
  /-- The keys increase strictly, so no key occurs twice. -/
  increasing : entries.Pairwise (fun a b => compare a.1 b.1 = .lt)

abbrev SortedSet (κ : Type) [Ord κ] : Type := SortedMap κ Unit

namespace SortedMap

variable {κ ν μ : Type} [Ord κ]

/-! ## Entry lists -/

def lookupIn (k : κ) : List (κ × ν) → Option ν
  | [] => none
  | e :: rest => if compare k e.1 = .eq then some e.2 else lookupIn k rest

/-- An entry put before the first larger key; an equal key gives way to it. -/
def insertInto (k : κ) (v : ν) : List (κ × ν) → List (κ × ν)
  | [] => [(k, v)]
  | e :: rest =>
    match compare k e.1 with
    | .lt => (k, v) :: e :: rest
    | .eq => (k, v) :: rest
    | .gt => e :: insertInto k v rest

theorem mem_insertInto {k : κ} {v : ν} {a : κ × ν} {l : List (κ × ν)} (h : a ∈ insertInto k v l) :
    a = (k, v) ∨ a ∈ l := by
  induction l with
  | nil => simpa [insertInto] using h
  | cons e rest ih =>
    simp only [insertInto] at h
    split at h <;> grind

theorem insertInto_increasing [Std.TransOrd κ] [Std.LawfulEqOrd κ] (k : κ) (v : ν) {l : List (κ × ν)}
    (h : l.Pairwise (fun a b => compare a.1 b.1 = .lt)) :
    (insertInto k v l).Pairwise (fun a b => compare a.1 b.1 = .lt) := by
  induction l with
  | nil => simp [insertInto]
  | cons e rest ih =>
    rw [List.pairwise_cons] at h
    simp only [insertInto]
    split
    · rename_i hlt
      refine List.pairwise_cons.2 ⟨fun a ha => ?_, List.pairwise_cons.2 h⟩
      rcases List.mem_cons.1 ha with rfl | ha
      · exact hlt
      · exact Std.TransCmp.lt_trans hlt (h.1 a ha)
    · rename_i heq
      have hk : k = e.1 := Std.LawfulEqCmp.eq_of_compare heq
      exact List.pairwise_cons.2 ⟨fun a ha => by simpa [hk] using h.1 a ha, h.2⟩
    · rename_i hgt
      refine List.pairwise_cons.2 ⟨fun a ha => ?_, ih h.2⟩
      rcases mem_insertInto ha with rfl | ha
      · exact Std.OrientedCmp.gt_iff_lt.1 hgt
      · exact h.1 a ha

/-! ## Operations -/

def empty : SortedMap κ ν := ⟨[], List.Pairwise.nil⟩

instance : Inhabited (SortedMap κ ν) := ⟨empty⟩

def get? (m : SortedMap κ ν) (k : κ) : Option ν := lookupIn k m.entries

def contains (m : SortedMap κ ν) (k : κ) : Bool := (m.get? k).isSome

def insert [Std.TransOrd κ] [Std.LawfulEqOrd κ] (m : SortedMap κ ν) (k : κ) (v : ν) : SortedMap κ ν :=
  ⟨insertInto k v m.entries, insertInto_increasing k v m.increasing⟩

/-- Stores under a key what `f` makes of the value that was there. -/
def update [Std.TransOrd κ] [Std.LawfulEqOrd κ] (m : SortedMap κ ν) (k : κ) (f : Option ν → ν) : SortedMap κ ν :=
  m.insert k (f (m.get? k))

def filter (p : κ → ν → Bool) (m : SortedMap κ ν) : SortedMap κ ν :=
  ⟨m.entries.filter (fun e => p e.1 e.2), m.increasing.filter _⟩

def erase (m : SortedMap κ ν) (k : κ) : SortedMap κ ν := m.filter (fun k' _ => compare k k' ≠ .eq)

def map (f : ν → μ) (m : SortedMap κ ν) : SortedMap κ μ :=
  ⟨m.entries.map (fun e => (e.1, f e.2)), List.pairwise_map.2 m.increasing⟩

def toList (m : SortedMap κ ν) : List (κ × ν) := m.entries

def keys (m : SortedMap κ ν) : List κ := m.entries.map Prod.fst

def values (m : SortedMap κ ν) : List ν := m.entries.map Prod.snd

def size (m : SortedMap κ ν) : Nat := m.entries.length

def isEmpty (m : SortedMap κ ν) : Bool := m.entries.isEmpty

/-- The map of a list of pairs; of two pairs with one key the later wins. -/
def ofList [Std.TransOrd κ] [Std.LawfulEqOrd κ] (l : List (κ × ν)) : SortedMap κ ν :=
  l.foldl (fun m e => m.insert e.1 e.2) empty

instance [DecidableEq κ] [DecidableEq ν] : DecidableEq (SortedMap κ ν) := fun a b =>
  if h : a.entries = b.entries then
    isTrue (by cases a; cases b; simp_all)
  else isFalse (fun e => h (by rw [e]))

instance [BEq κ] [BEq ν] : BEq (SortedMap κ ν) := ⟨fun a b => a.entries == b.entries⟩

/-! ## Lookup

What each operation does to the lookup.  After these nobody opens the entry list. -/

theorem lookupIn_insertInto [Std.LawfulEqOrd κ] (k k' : κ) (v : ν) (l : List (κ × ν)) :
    lookupIn k' (insertInto k v l) = if compare k' k = .eq then some v else lookupIn k' l := by
  induction l with
  | nil => simp [insertInto, lookupIn]
  | cons e rest ih =>
    simp only [insertInto]
    split
    · simp [lookupIn]
    · rename_i heq
      have hk : k = e.1 := Std.LawfulEqCmp.eq_of_compare heq
      subst hk
      by_cases h : compare k' e.1 = .eq <;> simp [lookupIn, h]
    · rename_i hgt
      simp only [lookupIn, ih]
      by_cases h : compare k' e.1 = .eq
      · have he : k' = e.1 := Std.LawfulEqCmp.eq_of_compare h
        subst he
        have : compare e.1 k ≠ .eq := fun hc => by
          have := Std.LawfulEqCmp.eq_of_compare hc
          subst this
          simp at hgt
        simp [this]
      · simp [h]

@[simp] theorem get?_empty (k : κ) : (empty : SortedMap κ ν).get? k = none := rfl

theorem get?_insert [Std.TransOrd κ] [Std.LawfulEqOrd κ] (m : SortedMap κ ν) (k k' : κ) (v : ν) :
    (m.insert k v).get? k' = if compare k' k = .eq then some v else m.get? k' :=
  lookupIn_insertInto k k' v m.entries

theorem get?_update [Std.TransOrd κ] [Std.LawfulEqOrd κ] (m : SortedMap κ ν) (k k' : κ) (f : Option ν → ν) :
    (m.update k f).get? k' = if compare k' k = .eq then some (f (m.get? k)) else m.get? k' :=
  get?_insert m k k' _

theorem lookupIn_eq_some [Std.LawfulEqOrd κ] {k : κ} {v : ν} {l : List (κ × ν)}
    (hl : l.Pairwise (fun a b => compare a.1 b.1 = .lt)) : lookupIn k l = some v ↔ (k, v) ∈ l := by
  induction l with
  | nil => simp [lookupIn]
  | cons e rest ih =>
    rw [List.pairwise_cons] at hl
    obtain ⟨ek, ev⟩ := e
    by_cases h : compare k ek = .eq
    · have hk : k = ek := Std.LawfulEqCmp.eq_of_compare h
      subst hk
      simp only [lookupIn, h, if_true, Option.some.injEq, List.mem_cons, Prod.mk.injEq, true_and]
      constructor
      · intro hv; exact Or.inl hv.symm
      · rintro (hv | hm)
        · exact hv.symm
        · have := hl.1 _ hm
          simp at this
    · have hne : k ≠ ek := fun e => h (e ▸ Std.ReflCmp.compare_self)
      simp only [lookupIn, h, if_false, List.mem_cons, Prod.mk.injEq, hne, false_and, false_or]
      exact ih hl.2

theorem lookupIn_behind [Std.LawfulEqOrd κ] {e : κ × ν} {l : List (κ × ν)}
    (h : (e :: l).Pairwise (fun a b => compare a.1 b.1 = .lt)) : lookupIn e.1 l = none := by
  rw [List.pairwise_cons] at h
  cases hv : lookupIn e.1 l with
  | none => rfl
  | some v => simpa using h.1 _ ((lookupIn_eq_some h.2).1 hv)

theorem get?_eq_some [Std.LawfulEqOrd κ] {m : SortedMap κ ν} {k : κ} {v : ν} : m.get? k = some v ↔ (k, v) ∈ m.entries :=
  lookupIn_eq_some m.increasing

theorem mem_entries_iff_of_get? [Std.LawfulEqOrd κ] {a b : SortedMap κ ν} (h : ∀ k, a.get? k = b.get? k) (e : κ × ν) :
    e ∈ a.entries ↔ e ∈ b.entries := by
  rw [← get?_eq_some, ← get?_eq_some, h]

theorem eq_of_mem_iff [Std.TransOrd κ] : ∀ {l r : List (κ × ν)}, l.Pairwise (fun a b => compare a.1 b.1 = .lt) →
    r.Pairwise (fun a b => compare a.1 b.1 = .lt) → (∀ e, e ∈ l ↔ e ∈ r) → l = r
  | [], [], _, _, _ => rfl
  | [], e :: _, _, _, h => absurd ((h e).2 (List.mem_cons_self ..)) (List.not_mem_nil)
  | e :: _, [], _, _, h => absurd ((h e).1 (List.mem_cons_self ..)) (List.not_mem_nil)
  | e :: l, e' :: r, hl, hr, h => by
    rw [List.pairwise_cons] at hl hr
    have irr : ∀ x : κ, compare x x ≠ .lt := fun x hx => by simp at hx
    have hee : e = e' := by
      rcases List.mem_cons.1 ((h e).1 (List.mem_cons_self ..)) with he | he
      · exact he
      · rcases List.mem_cons.1 ((h e').2 (List.mem_cons_self ..)) with he' | he'
        · exact he'.symm
        · exact absurd (Std.TransCmp.lt_trans (hl.1 _ he') (hr.1 _ he)) (irr _)
    subst hee
    congr 1
    refine eq_of_mem_iff hl.2 hr.2 fun x => ⟨fun hx => ?_, fun hx => ?_⟩
    · rcases List.mem_cons.1 ((h x).1 (List.mem_cons_of_mem _ hx)) with rfl | hx'
      · exact absurd (hl.1 _ hx) (irr _)
      · exact hx'
    · rcases List.mem_cons.1 ((h x).2 (List.mem_cons_of_mem _ hx)) with rfl | hx'
      · exact absurd (hr.1 _ hx) (irr _)
      · exact hx'

theorem ext_get? [Std.TransOrd κ] [Std.LawfulEqOrd κ] {a b : SortedMap κ ν} (h : ∀ k, a.get? k = b.get? k) : a = b := by
  have := eq_of_mem_iff a.increasing b.increasing (mem_entries_iff_of_get? h)
  cases a; cases b; simp_all

theorem lookupIn_filter [Std.LawfulEqOrd κ] (p : κ → ν → Bool) (k : κ) : ∀ {l : List (κ × ν)},
    l.Pairwise (fun a b => compare a.1 b.1 = .lt) →
    lookupIn k (l.filter (fun e => p e.1 e.2)) = (lookupIn k l).filter (p k)
  | [], _ => rfl
  | e :: l, h => by
    have hl := List.pairwise_cons.1 h
    by_cases hk : compare k e.1 = .eq
    · obtain rfl : k = e.1 := Std.LawfulEqCmp.eq_of_compare hk
      by_cases hp : p e.1 e.2 = true
      · simp [lookupIn, hp, Option.filter_some]
      · -- nothing behind a rejected entry is found
        rw [List.filter_cons_of_neg (by simpa using hp), lookupIn_filter p e.1 hl.2, lookupIn_behind h]
        simp [lookupIn, hp, Option.filter_some]
    · by_cases hp : p e.1 e.2 = true
      · rw [List.filter_cons_of_pos (by simpa using hp)]
        simp only [lookupIn, hk, if_false]
        exact lookupIn_filter p k hl.2
      · rw [List.filter_cons_of_neg (by simpa using hp)]
        simp only [lookupIn, hk, if_false]
        exact lookupIn_filter p k hl.2

theorem get?_filter [Std.LawfulEqOrd κ] (m : SortedMap κ ν) (p : κ → ν → Bool) (k : κ) :
    (m.filter p).get? k = (m.get? k).filter (p k) :=
  lookupIn_filter p k m.increasing

theorem get?_erase [Std.LawfulEqOrd κ] (m : SortedMap κ ν) (k k' : κ) :
    (m.erase k).get? k' = if compare k' k = .eq then none else m.get? k' := by
  unfold erase
  rw [get?_filter]
  by_cases h : k' = k
  · subst h
    cases m.get? k' <;> simp [Option.filter_some]
  · have hk : k ≠ k' := fun e => h e.symm
    cases m.get? k' <;> simp [Option.filter_some, h, hk]

theorem mem_keys [Std.LawfulEqOrd κ] {m : SortedMap κ ν} {k : κ} : k ∈ m.keys ↔ ∃ v, m.get? k = some v := by
  simp [keys, get?_eq_some]

theorem isEmpty_of_contains {m : SortedMap κ ν} {k : κ} (h : m.contains k = true) : m.isEmpty = false := by
  unfold contains get? at h
  unfold isEmpty
  cases hm : m.entries with
  | nil =>
    rw [hm] at h
    cases h
  | cons e rest => rfl

theorem exists_contains [Std.LawfulEqOrd κ] {m : SortedMap κ ν} (h : m.isEmpty = false) : ∃ k, m.contains k = true := by
  obtain ⟨e, he⟩ := List.exists_mem_of_ne_nil _ (List.isEmpty_eq_false_iff.1 h)
  exact ⟨e.1, Option.isSome_iff_exists.2 ⟨e.2, get?_eq_some.2 he⟩⟩

theorem flatMap_lookupIn [Std.LawfulEqOrd κ] [DecidableEq κ] (k : κ) : ∀ {l : List (κ × ν)},
    l.Pairwise (fun a b => compare a.1 b.1 = .lt) →
    l.flatMap (fun e => if e.1 = k then [e.2] else []) = (lookupIn k l).toList
  | [], _ => rfl
  | e :: l, h => by
    rw [List.flatMap_cons, flatMap_lookupIn k (List.pairwise_cons.1 h).2, lookupIn]
    by_cases hk : k = e.1
    · subst hk
      rw [if_pos rfl, if_pos Std.ReflCmp.compare_self, lookupIn_behind h]
      rfl
    · rw [if_neg (Ne.symm hk), if_neg fun hc => hk (Std.LawfulEqCmp.eq_of_compare hc), List.nil_append]

theorem flatMap_toList [Std.LawfulEqOrd κ] [DecidableEq κ] (m : SortedMap κ ν) (k : κ) :
    m.toList.flatMap (fun e => if e.1 = k then [e.2] else []) = (m.get? k).toList :=
  flatMap_lookupIn k m.increasing

theorem insertInto_of_above [Std.OrientedOrd κ] {k : κ} {v : ν} : ∀ {l : List (κ × ν)},
    (∀ e ∈ l, compare e.1 k = .lt) → insertInto k v l = l ++ [(k, v)]
  | [], _ => rfl
  | e :: l, h => by
    have hgt : compare k e.1 = .gt := Std.OrientedCmp.gt_iff_lt.2 (h e (List.mem_cons_self ..))
    rw [insertInto, hgt]
    dsimp only
    rw [insertInto_of_above fun e' he' => h e' (List.mem_cons_of_mem _ he')]
    rfl

theorem keys_insert_of_above [Std.TransOrd κ] [Std.LawfulEqOrd κ] {m : SortedMap κ ν} {k : κ}
    (h : ∀ k' ∈ m.keys, compare k' k = .lt) (v : ν) : (m.insert k v).keys = m.keys ++ [k] := by
  have hentries : ∀ e ∈ m.entries, compare e.1 k = .lt := fun e he => h e.1 (List.mem_map_of_mem he)
  change List.map Prod.fst (insertInto k v m.entries) = List.map Prod.fst m.entries ++ [k]
  rw [insertInto_of_above hentries, List.map_append]
  rfl

theorem nodup_keys [Std.LawfulEqOrd κ] (m : SortedMap κ ν) : m.keys.Nodup :=
  List.pairwise_map.2 (m.increasing.imp fun hlt heq => by rw [heq] at hlt; simp at hlt)

theorem increasing_keys (m : SortedMap κ ν) : m.keys.Pairwise (fun a b => compare a b = .lt) :=
  List.pairwise_map.2 m.increasing

theorem map_some_values [Std.LawfulEqOrd κ] (m : SortedMap κ ν) : m.values.map some = m.keys.map m.get? := by
  unfold values keys
  rw [List.map_map, List.map_map]
  exact List.map_congr_left fun e he => (get?_eq_some.2 he).symm

theorem mem_values [Std.LawfulEqOrd κ] {m : SortedMap κ ν} {v : ν} : v ∈ m.values ↔ ∃ k, m.get? k = some v := by
  simp [values, get?_eq_some]

theorem eq_of_increasing [Std.TransOrd κ] {l r : List κ} (hl : l.Pairwise (fun a b => compare a b = .lt))
    (hr : r.Pairwise (fun a b => compare a b = .lt)) (h : ∀ k, k ∈ l ↔ k ∈ r) : l = r := by
  have hentries : l.map (fun k => (k, ())) = r.map (fun k => (k, ())) :=
    eq_of_mem_iff (List.pairwise_map.2 hl) (List.pairwise_map.2 hr) fun e => by simp [h]
  have hkeys := congrArg (List.map Prod.fst) hentries
  simpa [Function.comp_def] using hkeys

end SortedMap

namespace SortedSet

variable {κ : Type} [Ord κ] [Std.TransOrd κ] [Std.LawfulEqOrd κ]

def ofList (l : List κ) : SortedSet κ := l.foldl (fun s k => SortedMap.insert s k ()) SortedMap.empty

def insert (s : SortedSet κ) (k : κ) : SortedSet κ := SortedMap.insert s k ()

theorem contains_foldl_insert : ∀ (l : List κ) (s : SortedSet κ) (k : κ),
    (l.foldl (fun s k => SortedMap.insert s k ()) s).contains k = true ↔ k ∈ l ∨ s.contains k = true
  | [], s, k => by simp
  | a :: l, s, k => by
    rw [List.foldl_cons, contains_foldl_insert l, SortedMap.contains, SortedMap.get?_insert, List.mem_cons]
    by_cases h : k = a
    · subst h; simp
    · simp [h, SortedMap.contains]

theorem contains_ofList {l : List κ} {k : κ} : (ofList l).contains k = true ↔ k ∈ l := by
  rw [ofList, contains_foldl_insert]
  simp [SortedMap.contains]

end SortedSet

end SeismicHazard
