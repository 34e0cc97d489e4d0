import SeismicHazard.Proofs.Json.Grammar
/-!
# Round trip — a written value is read back

What is written for a value spells it (`spells_pretty`), by induction on the value: blanks may stand wherever the writer
puts an indentation.  So a written value is read back (`parse?_pretty`).
-/
namespace SeismicHazard
namespace Json

variable {d : Nat} {b w : List Char}

theorem blanks_nil : Blanks [] := fun _ hc => absurd hc List.not_mem_nil

theorem blanks_newLine (d : Nat) : Blanks (newLine d) := by
  intro c hc
  rcases List.mem_cons.1 hc with rfl | hc
  · rfl
  · rw [List.eq_of_mem_replicate hc]
    rfl

theorem spells_newLine {v : Json} (h : Spells (.value v) w) (hb : Blanks b) :
    Spells (.item v) (newLine d ++ (w ++ b)) :=
  .item (blanks_newLine d) h hb

/-- **The items of an array are spelled one after the other**, with blanks behind them. -/
theorem spells_prettyItems (hb : Blanks b) : ∀ {vs : List Json}, vs ≠ [] →
    (∀ v ∈ vs, ∀ d, Spells (.value v) (prettyChars d v)) → Spells (.items vs) (prettyItems d vs ++ b)
  | [], hne, _ => absurd rfl hne
  | [v], _, h => by
    rw [prettyItems, List.append_assoc]
    exact .lastItem (spells_newLine (h v (List.mem_singleton_self v) d) hb)
  | v :: v' :: vs, _, h => by
    have hfirst : Spells (.item v) (newLine d ++ (prettyChars d v ++ [])) :=
      spells_newLine (h v (List.mem_cons_self ..) d) blanks_nil
    have hrest := spells_prettyItems hb (List.cons_ne_nil v' vs) fun u hu => h u (List.mem_cons_of_mem v hu)
    rw [List.append_nil] at hfirst
    rw [prettyItems.eq_3 d v _ (List.cons_ne_nil v' vs), List.append_assoc, List.cons_append]
    exact .items hfirst hrest

theorem spells_prettyMember {k : Option String} {v : Json} (h : Spells (.value v) w) (hb : Blanks b) :
    Spells (.member (k, v)) (newLine d ++ (literalChars k ++ ':' :: ' ' :: (w ++ b))) := by
  have hblank : Blanks [' '] := fun c hc => by rw [List.mem_singleton.1 hc]; rfl
  exact .member (blanks_newLine d) (spellsLiteral_literalChars k) blanks_nil (.item hblank h hb)

/-- **The members of an object are spelled one after the other**, with blanks behind them. -/
theorem spells_prettyMembers (hb : Blanks b) : ∀ {ms : List (Option String × Json)}, ms ≠ [] →
    (∀ m ∈ ms, ∀ d, Spells (.value m.2) (prettyChars d m.2)) → Spells (.members ms) (prettyMembers d ms ++ b)
  | [], hne, _ => absurd rfl hne
  | [(k, v)], _, h => by
    rw [prettyMembers, List.append_assoc, List.append_assoc]
    exact .lastMember (spells_prettyMember (h (k, v) (List.mem_singleton_self _) d) hb)
  | (k, v) :: m :: ms, _, h => by
    have hfirst : Spells (.member (k, v)) (newLine d ++ (literalChars k ++ ':' :: ' ' :: (prettyChars d v ++ []))) :=
      spells_prettyMember (h (k, v) (List.mem_cons_self ..) d) blanks_nil
    have hrest := spells_prettyMembers hb (List.cons_ne_nil m ms) fun u hu => h u (List.mem_cons_of_mem _ hu)
    have hboth := Spells.members hfirst hrest
    rw [prettyMembers.eq_3 d k v _ (List.cons_ne_nil m ms)]
    simpa using hboth

inductive Writable : Json → Prop where
  | null : Writable .null
  | bool (b : Bool) : Writable (.bool b)
  | number {x : Numeral} (h : ∀ d ∈ x.fraction, d < 10) : Writable (.number x)
  | string (s : Option String) : Writable (.string s)
  | array {items : List Json} (h : ∀ v ∈ items, Writable v) : Writable (.array items)
  | object {members : List (Option String × Json)} (h : ∀ m ∈ members, Writable m.2) : Writable (.object members)

theorem spells_pretty {v : Json} (h : Writable v) (d : Nat) : Spells (.value v) (prettyChars d v) := by
  induction h generalizing d with
  | null => exact .null
  | bool b =>
    cases b with
    | false => exact .no
    | true => exact .yes
  | number h => exact .number (spellsNumber_chars h)
  | string s => exact .string (spellsLiteral_literalChars s)
  | @array items _ ih =>
    cases items with
    | nil => exact .emptyArray blanks_nil
    | cons v vs => exact .array (spells_prettyItems (blanks_newLine d) (List.cons_ne_nil v vs) ih)
  | @object members _ ih =>
    cases members with
    | nil => exact .emptyObject blanks_nil
    | cons m ms => exact .object (spells_prettyMembers (blanks_newLine d) (List.cons_ne_nil m ms) ih)

theorem spelled_pretty {v : Json} (h : Writable v) : Spelled v v.pretty := by
  have hspells := Spells.item blanks_nil (spells_pretty h 0) blanks_nil
  rw [List.nil_append, List.append_nil] at hspells
  rw [Spelled, pretty, String.toList_ofList]
  exact hspells

theorem parse?_pretty {v : Json} (h : Writable v) : parse? v.pretty = some v := parse?_of_spelled (spelled_pretty h)

end Json
end SeismicHazard
