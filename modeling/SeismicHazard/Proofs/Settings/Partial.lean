import SeismicHazard.Proofs.Json.Grammar
import SeismicHazard.Proofs.Settings.RoundTrip
/-!
# Partial configurations

A document may keep any of the fields of a configuration, in any order and among members with other names.  A field that
it keeps has the value that it stands for and any other its default (`ofJson?_of_keptIn`), at both levels; since the
defaults are valid, so is what is read from a valid configuration (`validate_partly`).  What is read depends only on what
stands under the known names (`ofJson?_congr`), and nothing is read when one of them is repeated in the object that it
belongs to (`ofJson?_of_repeats`).  That any text of such a document is read as the document, whatever the values of the
other members are, is what the grammar gives (`Json.parse?_of_spelled`).
-/
namespace SeismicHazard

open Json (valuesUnder Named Distinct fields?_object word?_word mem_valuesUnder eq_singleton_of_mem ReadsBack Writable
  writable_record writable_word writable_float)

variable {members members' : List (Option String × Json)}

namespace Json

/-- The name is not given, or it is given once with a value that is as required. -/
def Keeps (P : Json → Prop) (name : String) (members : List (Option String × Json)) : Prop :=
  valuesUnder name members = [] ∨ ∃ v, valuesUnder name members = [v] ∧ P v

def ifGiven {α : Type} (name : String) (members : List (Option String × Json)) (given default : α) : α :=
  if (valuesUnder name members).isEmpty then default else given

def inner : Json → List (Option String × Json)
  | .object members => members
  | _ => []

def membersUnder (name : String) (members : List (Option String × Json)) : List (Option String × Json) :=
  (valuesUnder name members).flatMap inner

theorem Keeps.length_le {P : Json → Prop} {name : String} (h : Keeps P name members) :
    (valuesUnder name members).length ≤ 1 := by
  rcases h with h | ⟨v, h, -⟩ <;> simp [h]

/-- **A field is read as what it stands for** if it is given, and as its default if it is not. -/
theorem Keeps.fieldOr {α : Type} {P : Json → Prop} {name : String} {read : Json → Option α} {given : α}
    (h : Keeps P name members) (hread : ∀ v, P v → read v = some given) (default : α) :
    fieldOr default read (valuesUnder name members).head? = some (ifGiven name members given default) := by
  rcases h with h | ⟨v, h, hv⟩
  · rw [ifGiven, h]
    rfl
  · rw [ifGiven, h]
    exact hread v hv

/-- **A section is read from its members** if it is given, and as if it had none if it is not. -/
theorem Keeps.fieldOr_object {α : Type} {P : List (Option String × Json) → Prop} {name : String} {read : Json → Option α}
    {partly : List (Option String × Json) → α} (h : Keeps (fun v => ∃ members, v = .object members ∧ P members) name members)
    (hread : ∀ members, P members → read (.object members) = some (partly members)) :
    Json.fieldOr (partly []) read (valuesUnder name members).head? = some (partly (membersUnder name members)) := by
  rcases h with h | ⟨_, h, given, rfl, hgiven⟩
  · rw [membersUnder, h]
    rfl
  · rw [membersUnder, h, List.flatMap_singleton]
    exact hread given hgiven

def SameFields (names : List String) (v v' : Json) : Prop :=
  ∃ members members', v = .object members ∧ v' = .object members' ∧ Named members ∧ Named members' ∧
    ∀ n ∈ names, valuesUnder n members = valuesUnder n members'

theorem SameFields.fields?_eq {names : List String} {v v' : Json} (h : SameFields names v v') :
    v.fields? names = v'.fields? names := by
  obtain ⟨members, members', rfl, rfl, hnamed, hnamed', hsame⟩ := h
  have hvalues : (names.map fun n => (valuesUnder n members).head?) = names.map fun n => (valuesUnder n members').head? :=
    List.map_congr_left fun n hn => by rw [hsame n hn]
  rw [fields?_object, fields?_object, hvalues]
  refine if_congr (and_congr (iff_of_true hnamed hnamed') (forall₂_congr fun n hn => ?_)) rfl rfl
  rw [hsame n hn]

theorem fieldOr_congr {α : Type} {names : List String} {read : Json → Option α} {vs vs' : List Json}
    (h : List.Forall₂ (SameFields names) vs vs') (hread : ∀ {v v'}, v.fields? names = v'.fields? names → read v = read v')
    (default : α) : fieldOr default read vs.head? = fieldOr default read vs'.head? := by
  cases h with
  | nil => rfl
  | cons hv _ => exact hread hv.fields?_eq

end Json

open Json (Keeps ifGiven membersUnder SameFields)

namespace SamplingSettings

structure KeptIn (s : SamplingSettings) (members : List (Option String × Json)) : Prop where
  named : Named members
  seed : Keeps (· = .word s.seed) "random_seed" members
  samples : Keeps (· = .word s.samples) "number_of_logic_tree_samples" members

def partly (s : SamplingSettings) (members : List (Option String × Json)) : SamplingSettings where
  seed := ifGiven "random_seed" members s.seed ({} : SamplingSettings).seed
  samples := ifGiven "number_of_logic_tree_samples" members s.samples ({} : SamplingSettings).samples

theorem ofJson?_object (members : List (Option String × Json)) : ofJson? (.object members) =
    if Named members ∧ Distinct fieldNames members then do
      return ⟨← Json.fieldOr ({} : SamplingSettings).seed Json.word? (valuesUnder "random_seed" members).head?,
        ← Json.fieldOr ({} : SamplingSettings).samples Json.word?
          (valuesUnder "number_of_logic_tree_samples" members).head?⟩
    else none := by
  rw [ofJson?, fields?_object]
  split <;> rfl

theorem ofJson?_congr {v v' : Json} (h : v.fields? fieldNames = v'.fields? fieldNames) : ofJson? v = ofJson? v' := by
  rw [ofJson?, ofJson?, h]

theorem ofJson?_of_keptIn {s : SamplingSettings} (h : s.KeptIn members) :
    ofJson? (.object members) = some (s.partly members) := by
  have hword : ∀ {n : UInt64} (v : Json), v = .word n → v.word? = some n := by
    rintro n _ rfl
    exact word?_word n
  have hdistinct : Distinct fieldNames members :=
    List.forall_mem_cons.2 ⟨h.seed.length_le, List.forall_mem_singleton.2 h.samples.length_le⟩
  rw [ofJson?_object, if_pos ⟨h.named, hdistinct⟩, h.seed.fieldOr hword, h.samples.fieldOr hword]
  rfl

end SamplingSettings

namespace ProcessingSettings

/-- The members keep some of the fields; a distance is any number that is read as it. -/
structure KeptIn (s : ProcessingSettings) (members : List (Option String × Json)) : Prop where
  named : Named members
  maximumDistance : Keeps (fun v => v.float? = some s.maximumDistance) "maximum_distance" members
  discretization : Keeps (fun v => v.float? = some s.discretization) "area_source_discretization" members
  workers : Keeps (· = .word s.workers) "num_workers" members

def partly (s : ProcessingSettings) (members : List (Option String × Json)) : ProcessingSettings where
  maximumDistance := ifGiven "maximum_distance" members s.maximumDistance ({} : ProcessingSettings).maximumDistance
  discretization := ifGiven "area_source_discretization" members s.discretization
    ({} : ProcessingSettings).discretization
  workers := ifGiven "num_workers" members s.workers ({} : ProcessingSettings).workers

theorem ofJson?_object (members : List (Option String × Json)) : ofJson? (.object members) =
    if Named members ∧ Distinct fieldNames members then do
      return ⟨← Json.fieldOr ({} : ProcessingSettings).maximumDistance Json.float?
          (valuesUnder "maximum_distance" members).head?,
        ← Json.fieldOr ({} : ProcessingSettings).discretization Json.float?
          (valuesUnder "area_source_discretization" members).head?,
        ← Json.fieldOr ({} : ProcessingSettings).workers Json.word? (valuesUnder "num_workers" members).head?⟩
    else none := by
  rw [ofJson?, fields?_object]
  split <;> rfl

theorem ofJson?_congr {v v' : Json} (h : v.fields? fieldNames = v'.fields? fieldNames) : ofJson? v = ofJson? v' := by
  rw [ofJson?, ofJson?, h]

theorem ofJson?_of_keptIn {s : ProcessingSettings} (h : s.KeptIn members) :
    ofJson? (.object members) = some (s.partly members) := by
  have hword : ∀ v : Json, v = .word s.workers → v.word? = some s.workers := by
    rintro _ rfl
    exact word?_word s.workers
  have hdistinct : Distinct fieldNames members :=
    List.forall_mem_cons.2 ⟨h.maximumDistance.length_le, List.forall_mem_cons.2 ⟨h.discretization.length_le,
      List.forall_mem_singleton.2 h.workers.length_le⟩⟩
  rw [ofJson?_object, if_pos ⟨h.named, hdistinct⟩, h.maximumDistance.fieldOr fun _ hv => hv,
    h.discretization.fieldOr fun _ hv => hv, h.workers.fieldOr hword]
  rfl

theorem validate_eq_ok_iff (s : ProcessingSettings) : s.validate = .ok () ↔
    isPositiveDistance s.maximumDistance = true ∧ isPositiveDistance s.discretization = true := by
  rcases s.validate_cases with ⟨hdistance, hdiscretization, hok⟩ | ⟨hnot, fault, herror⟩
  · exact iff_of_true hok ⟨hdistance, hdiscretization⟩
  · refine iff_of_false (by rw [herror]; exact nofun) fun h => ?_
    rcases hnot with hnot | hnot
    · exact Bool.false_ne_true (hnot.symm.trans h.1)
    · exact Bool.false_ne_true (hnot.symm.trans h.2)

theorem validate_default : ({} : ProcessingSettings).validate = .ok () := by decide +kernel

theorem validate_partly {s : ProcessingSettings} (h : s.validate = .ok ()) (members : List (Option String × Json)) :
    (s.partly members).validate = .ok () := by
  have hgiven : ∀ {x y : Float} (name : String), isPositiveDistance x = true → isPositiveDistance y = true →
      isPositiveDistance (ifGiven name members x y) = true := by
    intro x y name hx hy
    unfold ifGiven
    split
    · exact hy
    · exact hx
  rw [validate_eq_ok_iff] at h ⊢
  have hdefault := (validate_eq_ok_iff {}).1 validate_default
  exact ⟨hgiven _ h.1 hdefault.1, hgiven _ h.2 hdefault.2⟩

end ProcessingSettings

namespace Settings

structure KeptIn (c : Settings) (members : List (Option String × Json)) : Prop where
  named : Named members
  sampling : Keeps (fun v => ∃ inner, v = .object inner ∧ c.sampling.KeptIn inner) "sampling" members
  processing : Keeps (fun v => ∃ inner, v = .object inner ∧ c.processing.KeptIn inner) "processor" members

def partly (c : Settings) (members : List (Option String × Json)) : Settings where
  sampling := c.sampling.partly (membersUnder "sampling" members)
  processing := c.processing.partly (membersUnder "processor" members)

theorem ofJson?_object (members : List (Option String × Json)) : ofJson? (.object members) =
    if Named members ∧ Distinct fieldNames members then do
      return ⟨← Json.fieldOr {} SamplingSettings.ofJson? (valuesUnder "sampling" members).head?,
        ← Json.fieldOr {} ProcessingSettings.ofJson? (valuesUnder "processor" members).head?⟩
    else none := by
  rw [ofJson?, fields?_object]
  split <;> rfl

theorem ofJson?_of_keptIn {c : Settings} (h : c.KeptIn members) :
    ofJson? (.object members) = some (c.partly members) := by
  have hdistinct : Distinct fieldNames members :=
    List.forall_mem_cons.2 ⟨h.sampling.length_le, List.forall_mem_singleton.2 h.processing.length_le⟩
  -- without members a section has the defaults
  have hsampling : Json.fieldOr {} SamplingSettings.ofJson? (valuesUnder "sampling" members).head? =
      some (c.partly members).sampling := h.sampling.fieldOr_object fun _ => SamplingSettings.ofJson?_of_keptIn
  have hprocessing : Json.fieldOr {} ProcessingSettings.ofJson? (valuesUnder "processor" members).head? =
      some (c.partly members).processing := h.processing.fieldOr_object fun _ => ProcessingSettings.ofJson?_of_keptIn
  rw [ofJson?_object, if_pos ⟨h.named, hdistinct⟩, hsampling, hprocessing]
  rfl

/-- The known names stand for the same in both, whatever the order of the members and the other names are. -/
structure Alike (members members' : List (Option String × Json)) : Prop where
  named : Named members
  named' : Named members'
  sampling : List.Forall₂ (SameFields SamplingSettings.fieldNames) (valuesUnder "sampling" members)
    (valuesUnder "sampling" members')
  processing : List.Forall₂ (SameFields ProcessingSettings.fieldNames) (valuesUnder "processor" members)
    (valuesUnder "processor" members')

theorem ofJson?_congr (h : Alike members members') : ofJson? (.object members) = ofJson? (.object members') := by
  have hdistinct : Distinct fieldNames members ↔ Distinct fieldNames members' := by
    refine forall₂_congr fun n hn => ?_
    rcases List.mem_pair.1 hn with rfl | rfl
    · rw [h.sampling.length_eq]
    · rw [h.processing.length_eq]
  rw [ofJson?_object, ofJson?_object, Json.fieldOr_congr h.sampling SamplingSettings.ofJson?_congr,
    Json.fieldOr_congr h.processing ProcessingSettings.ofJson?_congr]
  exact if_congr (and_congr (iff_of_true h.named h.named') hdistinct) rfl rfl

inductive Repeats (members : List (Option String × Json)) : Prop where
  | section_ (h : ¬Distinct fieldNames members)
  | sampling {inner : List (Option String × Json)} (hinner : (some "sampling", .object inner) ∈ members)
    (h : ¬Distinct SamplingSettings.fieldNames inner)
  | processing {inner : List (Option String × Json)} (hinner : (some "processor", .object inner) ∈ members)
    (h : ¬Distinct ProcessingSettings.fieldNames inner)

theorem ofJson?_of_repeats (h : Repeats members) : ofJson? (.object members) = none := by
  rw [ofJson?_object]
  split
  · rename_i hvalid
    cases h with
    | section_ h => exact absurd hvalid.2 h
    | sampling hinner h =>
      rw [eq_singleton_of_mem (hvalid.2 "sampling" (by decide)) (mem_valuesUnder.2 hinner), List.head?_cons,
        Json.fieldOr, SamplingSettings.ofJson?_object, if_neg fun hvalid => h hvalid.2]
      rfl
    | processing hinner h =>
      rw [eq_singleton_of_mem (hvalid.2 "processor" (by decide)) (mem_valuesUnder.2 hinner), List.head?_cons,
        Json.fieldOr, ProcessingSettings.ofJson?_object, if_neg fun hvalid => h hvalid.2]
      cases Json.fieldOr {} SamplingSettings.ofJson? (valuesUnder "sampling" members).head? <;> rfl
  · rfl

theorem read_of_spelled {v : Json} {text : String} (h : v.Spelled text) :
    read text = match ofJson? v with
      | none => .error .document
      | some s => s.validate.map fun _ => s := by
  rw [read, Json.parse?_of_spelled h]
  rfl

/-- **Partial configurations.**  A document that keeps some of the fields of a valid configuration, in any order and among
members with other names, is read as the configuration on those fields and as the defaults on the others.  Two documents
in which the known names stand for the same are read alike.  One that repeats a known name is refused as a document. -/
theorem read_partial (c : Settings) (hvalid : c.validate = .ok ()) :
    (∀ text members, (Json.object members).Spelled text → c.KeptIn members → read text = .ok (c.partly members)) ∧
    (∀ text text' members members', (Json.object members).Spelled text → (Json.object members').Spelled text' →
      Alike members members' → read text = read text') ∧
    ∀ text members, (Json.object members).Spelled text → Repeats members → read text = .error .document := by
  refine ⟨fun text members htext hkept => ?_, fun text text' members members' htext htext' halike => ?_,
    fun text members htext hrepeats => ?_⟩
  · have hpartly : (c.partly members).validate = .ok () := ProcessingSettings.validate_partly hvalid _
    rw [read_of_spelled htext, ofJson?_of_keptIn hkept]
    dsimp only
    rw [hpartly]
    rfl
  · rw [read_of_spelled htext, read_of_spelled htext', ofJson?_congr halike]
  · rw [read_of_spelled htext, ofJson?_of_repeats hrepeats]

def surveyed : Settings := ⟨⟨7, 4⟩, ⟨212.5, 1e-7, 3⟩⟩

/-- Three fields of the configuration, behind a member whose value has names and brackets of its own. -/
def surveyedMembers : List (String × Json) :=
  [("notes", .array [.text "\x7d]\"", .record [("sampling", .null), ("sampling", .null)]]),
    ("processor", .record [("num_workers", .word 3), ("unit", .text "km"), ("maximum_distance", .float 212.5)]),
    ("sampling", .record [("random_seed", .word 7)])]

def reorderedMembers : List (String × Json) :=
  [("sampling", .record [("random_seed", .word 7)]),
    ("processor", .record [("maximum_distance", .float 212.5), ("num_workers", .word 3)])]

def repeatedMembers : List (String × Json) :=
  [("processor", .record [("num_workers", .word 3), ("unit", .text "km"), ("num_workers", .word 3)])]

/-- Three fields of a configuration are read, in either order, and a document that repeats one is refused. -/
theorem read_partial_surveyed :
    surveyed.validate = .ok () ∧ surveyed.KeptIn (surveyedMembers.map fun m => (some m.1, m.2)) ∧
    read (Json.record surveyedMembers).pretty = .ok ⟨⟨7, 0⟩, ⟨212.5, 10, 3⟩⟩ ∧
    read (Json.record surveyedMembers).pretty = read (Json.record reorderedMembers).pretty ∧
    read (Json.record repeatedMembers).pretty = .error .document := by
  have hvalid : surveyed.validate = .ok () := by decide +kernel
  have hdistance : ReadsBack 212.5 := by decide +kernel
  have hspelled : ∀ members : List (String × Json), (∀ m ∈ members, Writable m.2) →
      (Json.object (members.map fun m => (some m.1, m.2))).Spelled (Json.record members).pretty :=
    fun _ h => Json.spelled_pretty (writable_record h)
  have htext : ∀ t, Writable (.text t) := fun t => .string (some t)
  have hnotes : Writable (.array [.text "\x7d]\"", .record [("sampling", .null), ("sampling", .null)]]) :=
    .array (by simp [htext, writable_record, Writable.null])
  have hsampling : Writable (.record [("random_seed", .word 7)]) := writable_record (by simp [writable_word])
  have hsurveyed := hspelled surveyedMembers
    (by simp [surveyedMembers, hnotes, hsampling, writable_record, writable_word, writable_float, htext])
  have hreordered := hspelled reorderedMembers
    (by simp [reorderedMembers, hsampling, writable_record, writable_word, writable_float])
  have hrepeated := hspelled repeatedMembers
    (by simp [repeatedMembers, writable_record, writable_word, htext])
  obtain ⟨hkept, halike, hrepeats⟩ := read_partial surveyed hvalid
  have hfields : surveyed.KeptIn (surveyedMembers.map fun m => (some m.1, m.2)) :=
    ⟨by decide, .inr ⟨_, rfl, _, rfl, by decide, .inr ⟨_, rfl, rfl⟩, .inl rfl⟩,
      .inr ⟨_, rfl, _, rfl, by decide, .inr ⟨_, rfl, hdistance⟩, .inl rfl, .inr ⟨_, rfl, rfl⟩⟩⟩
  refine ⟨hvalid, hfields, hkept _ _ hsurveyed hfields, halike _ _ _ _ hsurveyed hreordered ?_,
    hrepeats _ _ hrepeated ?_⟩
  · have hsame : SameFields SamplingSettings.fieldNames (.record [("random_seed", .word 7)])
        (.record [("random_seed", .word 7)]) := ⟨_, _, rfl, rfl, by decide, by decide, fun _ _ => rfl⟩
    refine ⟨by decide, by decide, .cons hsame .nil, .cons ⟨_, _, rfl, rfl, by decide, by decide, ?_⟩ .nil⟩
    exact List.forall_mem_cons.2 ⟨rfl, List.forall_mem_cons.2 ⟨rfl, List.forall_mem_singleton.2 rfl⟩⟩
  · exact .processing (.head _) (by decide)

end Settings
end SeismicHazard
