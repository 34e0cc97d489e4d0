/-!
# Natural numbers — powers, totals and words

The powers of two and ten that numbers are scaled by, and the total of a list of counts.  Counts that are kept in words
of 64 bits wrap around: a sum or a product is what a word keeps of it (`wordTotal_eq`, `wordProduct_eq`), and so it is
exact as long as a word holds it (`wordTotal_of_lt`).
-/
namespace SeismicHazard

def twoTo (n : Nat) : Nat := Nat.pow 2 n

def tenTo (n : Nat) : Nat := Nat.pow 10 n

def wordBound : Nat := twoTo 64

def total : List Nat → Nat
  | [] => 0
  | n :: ns => n + total ns

@[simp] theorem total_nil : total [] = 0 := rfl

@[simp] theorem total_cons (n : Nat) (ns : List Nat) : total (n :: ns) = n + total ns := rfl

@[simp] theorem total_append (l r : List Nat) : total (l ++ r) = total l + total r := by
  induction l with
  | nil => simp
  | cons n l ih => simp only [List.cons_append, total_cons, ih]; omega

theorem total_perm {l r : List Nat} (h : l.Perm r) : total l = total r := by
  induction h with
  | nil => rfl
  | cons n _ ih => rw [total_cons, total_cons, ih]
  | swap n m l => simp only [total_cons]; omega
  | trans _ _ ih₁ ih₂ => rw [ih₁, ih₂]

theorem total_map_flatMap {α β : Type} (f : α → List β) (g : β → Nat) : ∀ l : List α,
    total ((l.flatMap f).map g) = total (l.map (fun a => total ((f a).map g)))
  | [] => rfl
  | a :: l => by
    rw [List.flatMap_cons, List.map_append, total_append, total_map_flatMap f g l, List.map_cons, total_cons]

theorem length_flatMap_eq_total {α β : Type} (f : α → List β) : ∀ l : List α,
    (l.flatMap f).length = total (l.map (fun a => (f a).length))
  | [] => rfl
  | a :: l => by
    rw [List.flatMap_cons, List.length_append, length_flatMap_eq_total f l, List.map_cons, total_cons]

/-! ## Words -/

/-- What a word keeps of a number. -/
def wrap (n : Nat) : Nat := n % wordBound

theorem wrap_of_lt {n : Nat} (h : n < wordBound) : wrap n = n := Nat.mod_eq_of_lt h

@[simp] theorem wrap_wrap_add (m n : Nat) : wrap (wrap m + n) = wrap (m + n) := Nat.mod_add_mod m wordBound n

@[simp] theorem wrap_wrap_mul (m n : Nat) : wrap (wrap m * n) = wrap (m * n) := Nat.mod_mul_mod m n wordBound

def wordTotal (ns : List Nat) : Nat := ns.foldl (fun acc n => wrap (acc + n)) 0

def wordProduct (ns : List Nat) : Nat := ns.foldl (fun acc n => wrap (acc * n)) 1

theorem foldl_wrap_add : ∀ (ns : List Nat) (acc : Nat),
    ns.foldl (fun acc n => wrap (acc + n)) (wrap acc) = wrap (acc + total ns)
  | [], acc => rfl
  | n :: ns, acc => by
    rw [List.foldl_cons, wrap_wrap_add, foldl_wrap_add ns (acc + n), total_cons, Nat.add_assoc]

/-- **A sum in a word is what the word keeps of the total**, wherever it wraps around on the way. -/
theorem wordTotal_eq (ns : List Nat) : wordTotal ns = wrap (total ns) := by
  have h := foldl_wrap_add ns 0
  rwa [Nat.zero_add] at h

@[simp] theorem wordTotal_nil : wordTotal [] = 0 := rfl

theorem wordTotal_of_lt {ns : List Nat} (h : total ns < wordBound) : wordTotal ns = total ns :=
  (wordTotal_eq ns).trans (wrap_of_lt h)

theorem wordTotal_perm {l r : List Nat} (h : l.Perm r) : wordTotal l = wordTotal r := by
  rw [wordTotal_eq, wordTotal_eq, total_perm h]

theorem foldl_wrap_mul : ∀ (ns : List Nat) (acc : Nat),
    ns.foldl (fun acc n => wrap (acc * n)) (wrap acc) = wrap (ns.foldl (· * ·) acc)
  | [], acc => rfl
  | n :: ns, acc => by
    rw [List.foldl_cons, wrap_wrap_mul, foldl_wrap_mul ns (acc * n), List.foldl_cons]

theorem wordProduct_eq (ns : List Nat) : wordProduct ns = wrap (ns.foldl (· * ·) 1) := foldl_wrap_mul ns 1

end SeismicHazard
