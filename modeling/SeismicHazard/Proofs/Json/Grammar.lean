import SeismicHazard.Json.Reader
import SeismicHazard.Proofs.Json.Lexing
/-!
# Grammar — which texts are documents

`Spells` is the grammar of a document, without a word about how one is read: what a value is spelled as, and where blanks
may stand.  `Leads r w r'` says what a text does to the reader: wherever it stands, it falls into pieces whose tokens take
the reader from `r` to `r'`.  Texts compose (`leads_append`), provided that the second does not go on with a word of the
first.  What spells a value takes the reader from where a value may begin to where that value is complete, and nothing
further (`Spells.reads`), by induction over the grammar: items and members are read one after the other between marks,
however deep the values in them are.  So every text that spells a value is read as that value (`parse?_of_spelled`).
-/
namespace SeismicHazard
namespace Json

/-! ## The grammar -/

def Blanks (cs : List Char) : Prop := ∀ c ∈ cs, isBlank c = true

inductive Part where
  | value (v : Json)
  | item (v : Json)
  | items (vs : List Json)
  | member (m : Option String × Json)
  | members (ms : List (Option String × Json))

/-- **The characters spell the part.** -/
inductive Spells : Part → List Char → Prop where
  | null : Spells (.value .null) "null".toList
  | no : Spells (.value (.bool false)) "false".toList
  | yes : Spells (.value (.bool true)) "true".toList
  | number {x : Numeral} {w : List Char} (h : SpellsNumber x w) : Spells (.value (.number x)) w
  | string {s : Option String} {w : List Char} (h : SpellsLiteral s w) : Spells (.value (.string s)) w
  | emptyArray {b : List Char} (hb : Blanks b) : Spells (.value (.array [])) ('[' :: (b ++ [']']))
  | array {vs : List Json} {w : List Char} (h : Spells (.items vs) w) : Spells (.value (.array vs)) ('[' :: (w ++ [']']))
  | emptyObject {b : List Char} (hb : Blanks b) : Spells (.value (.object [])) ('\x7b' :: (b ++ ['\x7d']))
  | object {ms : List (Option String × Json)} {w : List Char} (h : Spells (.members ms) w) :
    Spells (.value (.object ms)) ('\x7b' :: (w ++ ['\x7d']))
  | item {v : Json} {b w b' : List Char} (hb : Blanks b) (h : Spells (.value v) w) (hb' : Blanks b') :
    Spells (.item v) (b ++ (w ++ b'))
  | lastItem {v : Json} {w : List Char} (h : Spells (.item v) w) : Spells (.items [v]) w
  | items {v : Json} {vs : List Json} {w w' : List Char} (h : Spells (.item v) w) (hs : Spells (.items vs) w') :
    Spells (.items (v :: vs)) (w ++ ',' :: w')
  | member {k : Option String} {v : Json} {b name b' w : List Char} (hb : Blanks b) (hname : SpellsLiteral k name)
    (hb' : Blanks b') (h : Spells (.item v) w) : Spells (.member (k, v)) (b ++ (name ++ (b' ++ ':' :: w)))
  | lastMember {m : Option String × Json} {w : List Char} (h : Spells (.member m) w) : Spells (.members [m]) w
  | members {m : Option String × Json} {ms : List (Option String × Json)} {w w' : List Char} (h : Spells (.member m) w)
    (hs : Spells (.members ms) w') : Spells (.members (m :: ms)) (w ++ ',' :: w')

/-- **The text spells the value**, with blanks around it. -/
def Spelled (v : Json) (text : String) : Prop := Spells (.item v) text.toList

variable {r r' r'' : Reading} {w w' : List Char} {open_ : List Frame}

/-! ## Texts that take the reader on -/

/-- The text takes the reader from one state to the other, wherever no word goes on after it. -/
def Leads (r : Reading) (w : List Char) (r' : Reading) : Prop :=
  ∃ (ps : List Piece) (ts : List Token), (∀ out cs, Stops cs → cut .gap out (w ++ cs) = cut .gap (ps.reverse ++ out) cs) ∧
    ps.mapM token? = some ts ∧ ts.foldlM feed r = some r'

theorem stops_append (h : Stops w) {cs : List Char} (hcs : Stops cs) : Stops (w ++ cs) := by
  cases w with
  | nil => exact hcs
  | cons c w => exact stops_cons (h c rfl) _

theorem leads_nil : Leads r [] r := ⟨[], [], fun _ _ _ => rfl, rfl, rfl⟩

theorem leads_append (h : Leads r w r') (h' : Leads r' w' r'') (hstop : Stops w') : Leads r (w ++ w') r'' := by
  obtain ⟨ps, ts, hcut, htokens, hfold⟩ := h
  obtain ⟨ps', ts', hcut', htokens', hfold'⟩ := h'
  refine ⟨ps ++ ps', ts ++ ts', fun out cs hcs => ?_, ?_, ?_⟩
  · rw [List.append_assoc, hcut out _ (stops_append hstop hcs), hcut' _ cs hcs, List.reverse_append, List.append_assoc]
  · rw [List.mapM_append, htokens, htokens']
    rfl
  · rw [List.foldlM_append, hfold]
    exact hfold'

theorem leads_piece {u : List Char} {p : Piece} {t : Token}
    (hcut : ∀ out cs, cut .gap out (u ++ cs) = cut .gap (p :: out) cs) (htoken : token? p = some t)
    (hfeed : feed r t = some r') (h : Leads r' w r'') : Leads r (u ++ w) r'' := by
  obtain ⟨ps, ts, hcut', htokens, hfold⟩ := h
  refine ⟨p :: ps, t :: ts, fun out cs hcs => ?_, ?_, ?_⟩
  · rw [List.append_assoc, hcut, hcut' _ cs hcs, List.reverse_cons, List.append_assoc]
    rfl
  · rw [List.mapM_cons, htokens, htoken]
    rfl
  · rw [List.foldlM_cons, hfeed]
    exact hfold

theorem leads_mark {c : Char} (hmark : isMark c = true) (hfeed : feed r (.mark c) = some r') (h : Leads r' w r'') :
    Leads r (c :: w) r'' :=
  leads_piece (u := [c]) (fun _ _ => cut_mark hmark) rfl hfeed h

theorem leads_literal {s : Option String} {u : List Char} (hs : SpellsLiteral s u) (hfeed : feed r (.string s) = some r')
    (h : Leads r' w r'') : Leads r (u ++ w) r'' := by
  obtain ⟨hunits⟩ := hs
  exact leads_piece (fun _ _ => cut_literal hunits) (token?_of_spellsUnits hunits) hfeed h

theorem leads_word {t : Token} (hne : w ≠ []) (hplain : ∀ c ∈ w, Plain c) (htoken : token? (.word w) = some t)
    (hfeed : feed r t = some r') : Leads r w r' := by
  refine ⟨[.word w], [t], fun out cs hcs => cut_word hne hplain hcs, ?_, ?_⟩
  · rw [List.mapM_cons, htoken]
    rfl
  · rw [List.foldlM_cons, hfeed]
    rfl

theorem leads_blanks {b : List Char} (hb : Blanks b) (h : Leads r w r') : Leads r (b ++ w) r' := by
  obtain ⟨ps, ts, hcut, htokens, hfold⟩ := h
  refine ⟨ps, ts, fun out cs hcs => ?_, htokens, hfold⟩
  rw [List.append_assoc, cut_blanks hb, hcut out cs hcs]

theorem stops_blanks {b : List Char} (hb : Blanks b) : Stops b := by
  rintro c hc ⟨hblank, -⟩
  rw [hb c (List.mem_of_mem_head? hc)] at hblank
  cases hblank

theorem stops_mark {c : Char} (h : isMark c = true) : Stops (c :: w) := by
  refine stops_cons ?_ w
  rintro ⟨-, -, hmark⟩
  rw [h] at hmark
  cases hmark

theorem leads_blanks_behind {b : List Char} (h : Leads r w r') (hb : Blanks b) : Leads r (w ++ b) r' := by
  have hblanks : Leads r' (b ++ []) r' := leads_blanks hb leads_nil
  rw [List.append_nil] at hblanks
  exact leads_append h hblanks (stops_blanks hb)

theorem parse?_of_leads {v : Json} {text : String} (h : Leads (.value []) text.toList (.done v)) :
    parse? text = some v := by
  obtain ⟨ps, ts, hcut, htokens, hfold⟩ := h
  have hpieces : pieces text.toList = some ps := by
    have hend := hcut [] [] stops_nil
    rw [List.append_nil, List.append_nil, cut] at hend
    rw [pieces, hend, Option.map_some, List.reverse_reverse]
  have hread : tokens? text = some ts := by
    rw [tokens?, hpieces]
    exact htokens
  rw [parse?, hread]
  dsimp only [Option.bind_eq_bind, Option.bind_some]
  rw [hfold]
  rfl

/-! ## Reading what is spelled -/

def Begins (r : Reading) (open_ : List Frame) : Prop := ∀ t, t ≠ .mark ']' → feed r t = begin? open_ t

theorem begins_value : Begins (.value open_) open_ := fun _ _ => rfl

theorem begins_item : Begins (.item open_) (.array [] :: open_) := fun t h => feed.eq_3 t open_ h

def Names (r : Reading) (acc : List (Option String × Json)) (open_ : List Frame) : Prop :=
  ∀ s, feed r (.string s) = some (.colon acc s open_)

def Part.Reads (w : List Char) : Part → Prop
  | .value v | .item v => ∀ ⦃r open_⦄, Begins r open_ → Leads r w (complete v open_)
  | .items vs => ∀ ⦃r acc open_⦄, Begins r (.array acc :: open_) → Leads r w (.afterItem (vs.reverse ++ acc) open_)
  | .member m => ∀ ⦃r acc open_⦄, Names r acc open_ → Leads r w (.afterMember (m :: acc) open_)
  | .members ms => ∀ ⦃r acc open_⦄, Names r acc open_ → Leads r w (.afterMember (ms.reverse ++ acc) open_)

theorem leads_enclosed {o c : Char} {s : Reading} (ho : isMark o = true) (hc : isMark c = true)
    (hopen : feed r (.mark o) = some r') (h : Leads r' w r'') (hclose : feed r'' (.mark c) = some s) :
    Leads r (o :: (w ++ [c])) s :=
  leads_mark ho hopen (leads_append h (leads_mark hc hclose leads_nil) (stops_mark hc))

theorem leads_comma {s : Reading} (h : Leads r w r') (hcomma : feed r' (.mark ',') = some r'') (h' : Leads r'' w' s) :
    Leads r (w ++ ',' :: w') s :=
  leads_append h (leads_mark rfl hcomma h') (stops_mark rfl)

theorem Spells.reads {p : Part} (h : Spells p w) : p.Reads w := by
  induction h with
  | null => exact fun r open_ hbegins => leads_word (by decide) (plain_of_all rfl) rfl (hbegins _ nofun)
  | no => exact fun r open_ hbegins => leads_word (by decide) (plain_of_all rfl) rfl (hbegins _ nofun)
  | yes => exact fun r open_ hbegins => leads_word (by decide) (plain_of_all rfl) rfl (hbegins _ nofun)
  | number h =>
    exact fun r open_ hbegins => leads_word h.ne_nil h.plain_of_mem (token?_of_spellsNumber h) (hbegins _ nofun)
  | string h =>
    intro r open_ hbegins
    have hliteral := leads_literal h (hbegins (.string _) nofun) leads_nil
    rw [List.append_nil] at hliteral
    exact hliteral
  | emptyArray hb =>
    intro r open_ hbegins
    have hopen : feed r (.mark '[') = some (.item open_) := hbegins _ nofun
    exact leads_mark rfl hopen (leads_blanks hb (leads_mark rfl rfl leads_nil))
  | array _ ih =>
    intro r open_ hbegins
    have hopen : feed r (.mark '[') = some (.item open_) := hbegins _ nofun
    refine leads_enclosed rfl rfl hopen (ih begins_item) ?_
    rw [feed, List.append_nil, List.reverse_reverse]
  | emptyObject hb =>
    intro r open_ hbegins
    have hopen : feed r (.mark '\x7b') = some (.member open_) := hbegins _ nofun
    exact leads_mark rfl hopen (leads_blanks hb (leads_mark rfl rfl leads_nil))
  | object _ ih =>
    intro r open_ hbegins
    have hopen : feed r (.mark '\x7b') = some (.member open_) := hbegins _ nofun
    have hnames : Names (.member open_) [] open_ := fun _ => rfl
    refine leads_enclosed rfl rfl hopen (ih hnames) ?_
    rw [feed, List.append_nil, List.reverse_reverse]
  | item hb _ hb' ih => exact fun r open_ hbegins => leads_blanks hb (leads_blanks_behind (ih hbegins) hb')
  | lastItem _ ih => exact fun r acc open_ hbegins => ih hbegins
  | @items v vs _ _ _ _ ih ihs =>
    intro r acc open_ hbegins
    have hfirst : Leads r _ (.afterItem (v :: acc) open_) := ih hbegins
    rw [List.reverse_cons, List.append_assoc]
    exact leads_comma hfirst rfl (ihs begins_value)
  | @member k v _ _ _ _ hb hname hb' _ ih =>
    intro r acc open_ hnames
    have hvalue : Leads (.value (.object acc k :: open_)) _ (.afterMember ((k, v) :: acc) open_) := ih begins_value
    exact leads_blanks hb (leads_literal hname (hnames k) (leads_blanks hb' (leads_mark rfl rfl hvalue)))
  | lastMember _ ih => exact fun r acc open_ hnames => ih hnames
  | @members m ms _ _ _ _ ih ihs =>
    intro r acc open_ hnames
    have hrest : Names (.name (m :: acc) open_) (m :: acc) open_ := fun _ => rfl
    rw [List.reverse_cons, List.append_assoc]
    exact leads_comma (ih hnames) rfl (ihs hrest)

theorem parse?_of_spelled {v : Json} {text : String} (h : Spelled v text) : parse? text = some v :=
  parse?_of_leads (Spells.reads h begins_value)

end Json
end SeismicHazard
