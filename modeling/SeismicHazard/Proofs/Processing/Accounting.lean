import SeismicHazard.Proofs.Processing.Scheduling
import SeismicHazard.Proofs.Telemetry.Counting
/-!
# Accounting — report, telemetry and groups tell of the same pass

The same facts are kept three times: every source leaves a record on its way through the merges and an event for
telemetry, and its parts are counted again where they arrive.  When a pass succeeds, the records are those of the
sources that were there (`records_joinHalves`), the events are those of the records and of the empty groups
(`events_perm`), and every group is as large as the records of its sources say (`size_refilled`).  `process_accounted`
puts them side by side.
-/
namespace SeismicHazard

variable {S W : Type}

def SourceKind.runMode (kind : SourceKind) : RunMode :=
  match kind.costClass with
  | .light => .sequential
  | .heavy => .parallel

namespace Composite

theorem numSources_eq (c : Composite S W) : c.numSources = total (c.groups.map SourceGroup.size) := by
  rw [groups, total_map_flatMap]
  rfl

end Composite

namespace Processor

open SourceGroup (refill)

/-! ## Events -/

def eventOf (r : SourceRecord) : TelemetryEvent := r.event r.kind.runMode

theorem emptyGroupEvents_eq (gs : List (SourceGroup S)) :
    emptyGroupEvents gs = List.replicate (gs.countP SourceGroup.isEmpty) .emptyGroup := by
  rw [emptyGroupEvents, List.map_const', List.countP_eq_length_filter]

def eventsIn (records : List SourceRecord) (gs : List (SourceGroup S)) : List TelemetryEvent :=
  records.map eventOf ++ emptyGroupEvents gs

theorem countP_eventsIn (q : TelemetryEvent → Bool) (records : List SourceRecord) (gs : List (SourceGroup S)) :
    (eventsIn records gs).countP q =
      records.countP (fun r => q (eventOf r)) + if q .emptyGroup then gs.countP SourceGroup.isEmpty else 0 := by
  rw [eventsIn, List.countP_append, List.countP_map, emptyGroupEvents_eq, List.countP_replicate]
  rfl

theorem total_parts_eventsIn (records : List SourceRecord) (gs : List (SourceGroup S)) :
    total ((eventsIn records gs).map TelemetryEvent.parts) = total (records.map SourceRecord.parts) := by
  have hempty : ∀ n : Nat, total ((List.replicate n TelemetryEvent.emptyGroup).map TelemetryEvent.parts) = 0 := by
    intro n
    induction n with
    | zero => rfl
    | succ n ih =>
      rw [List.replicate_succ, List.map_cons, total_cons, ih]
      rfl
  rw [eventsIn, List.map_append, total_append, emptyGroupEvents_eq, hempty, List.map_map]
  rfl

variable [Source S]

/-! ## One source -/

/-- The record of a source of a group: what it is, how many sub-sources it has, and how long that took. -/
def recordFor (p : Processor S) (x : GroupId × S) : SourceRecord where
  group := x.1
  source := Source.id x.2
  kind := Source.kind x.2
  parts := (p.subsOf x).length
  filterTime := (p.clock x.1 x.2).1
  splitTime := (p.clock x.1 x.2).2

theorem parts_eq {p : Processor S} {x : GroupId × S} {subs : List S} (h : p.parts x.1 x.2 = .ok subs) :
    p.parts x.1 x.2 = .ok (p.subsOf x) := by
  rw [h]
  unfold parts at h
  obtain ⟨kept, hk, h⟩ := Outcome.bind_eq_ok.1 h
  unfold subsOf
  rw [survives_of_keeps (Outcome.lift_eq_ok.1 hk)]
  cases kept with
  | false =>
    cases h
    rfl
  | true =>
    obtain ⟨pieces, hp, h⟩ := Outcome.bind_eq_ok.1 h
    cases h
    rw [piecesOf, hp]
    rfl

theorem parts_of_isOk {p : Processor S} {x : GroupId × S} (h : (p.filterAndSplit x.1 x.2).isOk = true) :
    p.parts x.1 x.2 = .ok (p.subsOf x) := by
  obtain ⟨r, hr⟩ := Outcome.isOk_iff.1 h
  obtain ⟨subs, hsubs, -⟩ := Outcome.map_eq_ok.1 hr
  exact parts_eq hsubs

theorem filterAndSplit_eq {p : Processor S} {x : GroupId × S} (h : p.parts x.1 x.2 = .ok (p.subsOf x)) :
    p.filterAndSplit x.1 x.2 = .ok (p.resultOf x) := by
  rw [filterAndSplit, h]
  rfl

/-! ## The records -/

variable {p : Processor S} {m : TaskManager}

theorem records_valueOf (p : Processor S) (m : TaskManager) (l : List (GroupId × S)) :
    (p.valueOf m l).records.Perm (l.map p.recordFor) := by
  rw [valueOf, SplitResult.records_value, List.map_eq_flatMap]
  exact (m.complete l).flatMap_right _

theorem records_joinHalves {l : List (GroupId × S)} {r : SplitResult S}
    (h : ∀ x ∈ l, p.filterAndSplit x.1 x.2 = .ok (p.resultOf x))
    (hj : joinHalves (p.half .sequential .sequential (halves l).2).result (p.half m .parallel (halves l).1).result =
      .ok r) : r.records.Perm (l.map p.recordFor) := by
  have hperm := halves_perm l
  have hlight := runHalf_of_ok .sequential fun x hx => h x (hperm.mem_iff.1 (List.mem_append_left _ hx))
  have hheavy := runHalf_of_ok m fun x hx => h x (hperm.mem_iff.1 (List.mem_append_right _ hx))
  obtain ⟨light, heavy, hl, hh, rfl⟩ := joinHalves_eq_ok.1 hj
  cases hlight.symm.trans hl
  cases hheavy.symm.trans hh
  refine ((records_valueOf p .sequential _).append (records_valueOf p m _)).trans ?_
  rw [← List.map_append]
  exact hperm.map _

theorem isOk_of_joinHalves {l : List (GroupId × S)} {r : SplitResult S}
    (hj : joinHalves (p.half .sequential .sequential (halves l).2).result (p.half m .parallel (halves l).1).result =
      .ok r) : ∀ x ∈ l, (p.filterAndSplit x.1 x.2).isOk = true := by
  obtain ⟨light, heavy, hl, hh, -⟩ := joinHalves_eq_ok.1 hj
  intro x hx
  rcases List.mem_append.1 ((halves_perm l).mem_iff.2 hx) with hx | hx
  · exact Reduction.isOk_of_run hl x ((TaskManager.sequential.complete _).mem_iff.2 hx)
  · exact Reduction.isOk_of_run hh x ((m.complete _).mem_iff.2 hx)

/-! ## The events of the halves -/

theorem eventsOf_perm (m : TaskManager) (mode : RunMode) {l : List (GroupId × S)}
    (h : ∀ x ∈ l, p.filterAndSplit x.1 x.2 = .ok (p.resultOf x)) :
    (p.eventsOf m mode l).Perm (l.map (fun x => (p.recordFor x).event mode)) := by
  have hdone := m.progress_of_ok Abort.halts (fun x => p.filterAndSplit x.1 x.2) p.resultOf l h
  refine (hdone.flatMap_right fun r => r.records.map (SourceRecord.event mode)).trans ?_
  rw [List.flatMap_map, List.map_eq_flatMap]
  exact List.Perm.refl _

theorem runMode_of_mem_halves {l : List (GroupId × S)} : (∀ x ∈ (halves l).1, (Source.kind x.2).runMode = .parallel) ∧
    ∀ x ∈ (halves l).2, (Source.kind x.2).runMode = .sequential := by
  rw [halves, List.partition_eq_filter_filter]
  constructor <;> intro x hx <;> have hheavy := (List.mem_filter.1 hx).2 <;> unfold isHeavy at hheavy <;>
    unfold SourceKind.runMode
  · rw [of_decide_eq_true hheavy]
  · cases hcost : (Source.kind x.2).costClass with
    | light => rfl
    | heavy => simp [hcost] at hheavy

theorem events_perm {l : List (GroupId × S)} (h : ∀ x ∈ l, p.filterAndSplit x.1 x.2 = .ok (p.resultOf x)) :
    ((p.half .sequential .sequential (halves l).2).events ++ (p.half m .parallel (halves l).1).events).Perm
      ((l.map p.recordFor).map eventOf) := by
  have hperm := halves_perm l
  have hlight := eventsOf_perm .sequential .sequential fun x hx => h x (hperm.mem_iff.1 (List.mem_append_left _ hx))
  have hheavy := eventsOf_perm m .parallel fun x hx => h x (hperm.mem_iff.1 (List.mem_append_right _ hx))
  refine (hlight.append hheavy).trans ?_
  have hsequential : ∀ x ∈ (halves l).2, (p.recordFor x).event .sequential = eventOf (p.recordFor x) := fun x hx =>
    congrArg (fun mode => (p.recordFor x).event mode) (runMode_of_mem_halves.2 x hx).symm
  have hparallel : ∀ x ∈ (halves l).1, (p.recordFor x).event .parallel = eventOf (p.recordFor x) := fun x hx =>
    congrArg (fun mode => (p.recordFor x).event mode) (runMode_of_mem_halves.1 x hx).symm
  rw [List.map_congr_left hsequential, List.map_congr_left hparallel, ← List.map_append, List.map_map]
  exact hperm.map _

/-! ## The groups -/

/-- **A group is offered what was found under its number**, if no other group has it. -/
theorem replacements_eq_map {gs : List (SourceGroup S)} {byGroup : SortedMap GroupId (List S)}
    {sources : List (List S)} (groups : (gs.map SourceGroup.id).Nodup) (h : replacements gs byGroup = .ok sources) :
    sources = gs.map (fun g => sortBy leById ((byGroup.get? g.id).getD [])) :=
  (meets_replacements _ groups fun _ _ => rfl).eq_of_ok h

theorem length_offered (p : Processor S) (g : SourceGroup S) :
    (p.offered g).length = total (g.sources.map (fun s => (p.subsOf (g.id, s)).length)) := by
  rw [offered, ← flatMap_subsOf, length_flatMap_eq_total]

theorem total_parts (p : Processor S) (c : Composite S W) :
    total ((c.taggedSources.map p.recordFor).map SourceRecord.parts) =
      total (c.groups.map (fun g => (p.offered g).length)) := by
  rw [List.map_map, Composite.taggedSources, total_map_flatMap]
  simp only [length_offered, List.map_map]
  rfl

theorem flatMap_filter_eq {α β : Type} (q : α → Bool) (f : α → List β) : ∀ l : List α,
    (l.filter q).flatMap f = l.flatMap (fun a => if q a then f a else [])
  | [] => rfl
  | a :: l => by
    rw [List.flatMap_cons, ← flatMap_filter_eq q f l, List.filter_cons]
    split
    · rw [List.flatMap_cons]
    · rw [List.nil_append]

theorem total_parts_of_group {p : Processor S} {c : Composite S W} (groups : (c.groups.map SourceGroup.id).Nodup)
    {g : SourceGroup S} (hg : g ∈ c.groups) :
    total (((c.taggedSources.map p.recordFor).filter (fun r => r.group = g.id)).map SourceRecord.parts) =
      (p.offered g).length := by
  have hoffered : (c.taggedSources.filter (fun x => x.1 = g.id)).flatMap p.subsOf = p.offered g := by
    rw [flatMap_filter_eq, ← flatMap_taggedSources groups hg]
    simp only [decide_eq_true_iff]
  rw [← hoffered, length_flatMap_eq_total, List.filter_map, List.map_map]
  rfl

def refilled (r : SplitResult S) (g : SourceGroup S) : SourceGroup S := g.refill (sortBy leById (r.sourcesOf g.id))

theorem id_refilled (r : SplitResult S) (g : SourceGroup S) : (refilled r g).id = g.id := by
  rw [refilled, SourceGroup.refill_eq]
  rfl

theorem size_refilled (r : SplitResult S) (g : SourceGroup S) : (refilled r g).size = (r.sourcesOf g.id).length := by
  rw [refilled, SourceGroup.refill_eq]
  exact (sortBy_perm leById _).length_eq

/-! ## The pass -/

/-- What a report says of a pass: it has one record for each source that was there, with the number of its sub-sources,
and every group is now as large as the records of its sources say. -/
structure Accounts (p : Processor S) (before after : Composite S W) (report : Report) : Prop where
  split : ∀ x ∈ before.taggedSources, p.parts x.1 x.2 = .ok (p.subsOf x)
  records : report.records.Perm (before.taggedSources.map p.recordFor)
  ids : after.groups.map SourceGroup.id = before.groups.map SourceGroup.id
  sizes : ∀ g ∈ after.groups,
    total ((report.records.filter (fun r => r.group = g.id)).map SourceRecord.parts) = g.size
  numParts_eq : report.numParts = after.numSources

/-- What telemetry says of a pass: it agrees with the report, and with the sources and groups themselves. -/
structure Metered {N : Type} [Scalar N] (before after : Composite S W) (report : Report) (t : Telemetry N) : Prop where
  processed : ∀ kind, t.processedBy kind kind.runMode =
    Telemetry.shown (before.taggedSources.countP (fun x => Source.kind x.2 = kind))
  elsewhere : ∀ kind mode, mode ≠ kind.runMode → t.processedBy kind mode = none
  dropped : t.dropped = Scalar.ofNat report.numDropped
  parts : t.parts = Scalar.ofNat report.numParts
  emptyGroups : t.emptyGroups = Scalar.ofNat (after.groups.countP SourceGroup.isEmpty)
  filterSeconds : t.filterSeconds.count = report.records.length
  splitSeconds : t.splitSeconds.count = report.records.length

theorem metered_recordAll {N : Type} [Scalar N] {limit : Nat} (hN : CountsBelow N limit) {before after : Composite S W}
    {report : Report} {events : List TelemetryEvent}
    (hrecords : report.records.Perm (before.taggedSources.map p.recordFor))
    (hevents : events.Perm (eventsIn report.records after.groups)) (hlength : report.records.length < limit)
    (hparts : report.numParts < limit) (hgroups : after.groups.length < limit) :
    Metered before after report (Telemetry.empty.recordAll events : Telemetry N) := by
  have hsources : events.countP TelemetryEvent.isSource = report.records.length := by
    rw [hevents.countP_eq, countP_eventsIn]
    exact List.countP_eq_length.2 fun _ _ => rfl
  have hempty : events.countP TelemetryEvent.isEmptyGroup = after.groups.countP SourceGroup.isEmpty := by
    rw [hevents.countP_eq, countP_eventsIn]
    exact (congrArg (· + _) (List.countP_eq_zero.2 fun _ _ => Bool.false_ne_true)).trans (Nat.zero_add _)
  have htotal : total (events.map TelemetryEvent.parts) = report.numParts := by
    rw [total_perm (hevents.map _), total_parts_eventsIn]
    rfl
  have hkind : ∀ kind mode, events.countP (TelemetryEvent.isSourceOf kind mode) =
      before.taggedSources.countP (fun x => Source.kind x.2 = kind ∧ (Source.kind x.2).runMode = mode) := by
    intro kind mode
    rw [hevents.countP_eq, countP_eventsIn, hrecords.countP_eq, List.countP_map]
    rfl
  have htallies : Telemetry.Tallies (Telemetry.empty.recordAll events : Telemetry N) events :=
    Telemetry.tallies_recordAll hN (hsources ▸ hlength) (htotal ▸ hparts)
      (hempty ▸ Nat.lt_of_le_of_lt List.countP_le_length hgroups)
  refine ⟨fun kind => ?_, fun kind mode hmode => ?_, ?_, ?_, ?_, ?_, ?_⟩
  · rw [htallies.processed, hkind]
    congr 1
    refine List.countP_congr fun x _ => ?_
    simp only [decide_eq_true_iff]
    exact ⟨fun h => h.1, fun h => ⟨h, congrArg SourceKind.runMode h⟩⟩
  · rw [htallies.processed, hkind]
    have hnone : before.taggedSources.countP
        (fun x => Source.kind x.2 = kind ∧ (Source.kind x.2).runMode = mode) = 0 := by
      refine List.countP_eq_zero.2 fun x _ => ?_
      simp only [decide_eq_true_iff]
      rintro ⟨rfl, rfl⟩
      exact hmode rfl
    rw [hnone]
    rfl
  · rw [htallies.dropped, hevents.countP_eq, countP_eventsIn]
    rfl
  · rw [htallies.parts, htotal]
  · rw [htallies.emptyGroups, hempty]
  · rw [htallies.filterSeconds, hsources]
  · rw [htallies.splitSeconds, hsources]

structure Completed (p : Processor S) (c : Composite S W) (r : SplitResult S) : Prop where
  split : ∀ x ∈ c.taggedSources, p.parts x.1 x.2 = .ok (p.subsOf x)
  records : r.records.Perm (c.taggedSources.map p.recordFor)
  offered : ∀ g ∈ c.groups, (r.sourcesOf g.id).Perm (p.offered g)

theorem process_completed {stamp : PassStamp} {c : Composite S W} (groups : (c.groups.map SourceGroup.id).Nodup)
    (ok : (p.process m stamp c).result.isOk = true) : ∃ r events, p.Completed c r ∧
      events.Perm (r.records.map eventOf) ∧ p.process m stamp c =
        ⟨withReport (c.mapGroups (refilled r)) stamp r, events ++ emptyGroupEvents (c.groups.map (refilled r)),
          .ok stamp.times⟩ := by
  obtain ⟨sources, hv, r, hj, hr⟩ := (isOk_processWith_iff p _ stamp c).1 ok
  have hsplit : ∀ x ∈ c.taggedSources, p.parts x.1 x.2 = .ok (p.subsOf x) := fun x hx =>
    parts_of_isOk (isOk_of_joinHalves hj x hx)
  have htasks := fun x hx => filterAndSplit_eq (hsplit x hx)
  have hrecords := records_joinHalves htasks hj
  have hgroups : List.zipWith refill c.groups sources = c.groups.map (refilled r) := by
    rw [replacements_eq_map groups hr, List.zipWith_map_right, List.zipWith_self]
    rfl
  have hpass : p.process m stamp c = _ := processWith_eq stamp hv hj hr
  rw [hgroups, Composite.setGroups_map] at hpass
  refine ⟨r, _, ⟨hsplit, hrecords, fun g hg => ?_⟩, (events_perm htasks).trans (hrecords.map eventOf).symm, hpass⟩
  obtain ⟨r', hj', hperm⟩ := joinHalves_of_ok m htasks
  cases hj.symm.trans hj'
  rw [← flatMap_taggedSources groups hg]
  exact hperm g.id

theorem Completed.accounts {c : Composite S W} {r : SplitResult S} (h : p.Completed c r)
    (groups : (c.groups.map SourceGroup.id).Nodup) (stamp : PassStamp) :
    p.Accounts c (withReport (c.mapGroups (refilled r)) stamp r)
      (.ofRecords stamp.runId stamp.completedAt stamp.times r.records) := by
  have hrecords : (sortBy SourceRecord.le r.records).Perm (c.taggedSources.map p.recordFor) :=
    (sortBy_perm _ _).trans h.records
  have hafter : (withReport (c.mapGroups (refilled r)) stamp r).groups = c.groups.map (refilled r) :=
    Composite.groups_mapGroups (refilled r) c
  refine ⟨h.split, hrecords, ?_, fun g hg => ?_, ?_⟩
  · rw [hafter, List.map_map]
    exact List.map_congr_left fun g _ => id_refilled r g
  · rw [hafter] at hg
    obtain ⟨g, hmem, rfl⟩ := List.mem_map.1 hg
    rw [id_refilled, size_refilled, (h.offered g hmem).length_eq, ← total_parts_of_group groups hmem]
    exact total_perm ((hrecords.filter _).map _)
  · have hsizes : c.groups.map (SourceGroup.size ∘ refilled r) = c.groups.map (fun g => (p.offered g).length) :=
      List.map_congr_left fun g hg => (size_refilled r g).trans (h.offered g hg).length_eq
    rw [Composite.numSources_eq, hafter, List.map_map, hsizes, ← total_parts]
    exact total_perm (hrecords.map _)

/-- **Report, telemetry and groups agree.**  If the numbers of the groups differ, a pass that succeeds leaves a report
with one record for each source that was there; the groups are as large as the records say; and telemetry that was new
before the pass shows the same numbers, as exact counts and, below `2 ^ 53`, as doubles. -/
theorem process_accounted (p : Processor S) (m : TaskManager) (stamp : PassStamp) (c : Composite S W)
    (groups : (c.groups.map SourceGroup.id).Nodup) {times : PassTimes}
    (ok : (p.process m stamp c).result = .ok times) :
    ∃ report, (p.process m stamp c).composite.report = some report ∧
      p.Accounts c (p.process m stamp c).composite report ∧
      Metered c (p.process m stamp c).composite report
        (Telemetry.empty.recordAll (p.process m stamp c).events : Telemetry Rat) ∧
      (report.records.length < 2 ^ 53 → report.numParts < 2 ^ 53 → c.groups.length < 2 ^ 53 →
        Metered c (p.process m stamp c).composite report
          (Telemetry.empty.recordAll (p.process m stamp c).events : Telemetry Float)) := by
  obtain ⟨r, events, hcompleted, hevents, hpass⟩ := process_completed groups (Outcome.isOk_iff.2 ⟨times, ok⟩)
  have haccounts := hcompleted.accounts groups stamp
  have hafter : (withReport (c.mapGroups (refilled r)) stamp r).groups = c.groups.map (refilled r) :=
    Composite.groups_mapGroups (refilled r) c
  have hlength := congrArg List.length hafter
  rw [List.length_map] at hlength
  rw [hpass]
  dsimp only
  refine ⟨.ofRecords stamp.runId stamp.completedAt stamp.times r.records, rfl, haccounts, ?_⟩
  generalize Report.ofRecords stamp.runId stamp.completedAt stamp.times r.records = report at haccounts
  have hperm : (events ++ emptyGroupEvents (c.groups.map (refilled r))).Perm
      (eventsIn report.records (withReport (c.mapGroups (refilled r)) stamp r).groups) := by
    rw [hafter]
    exact (hevents.trans ((hcompleted.records.trans haccounts.records.symm).map eventOf)).append_right _
  constructor
  · refine metered_recordAll (countsBelow_rat (report.records.length + report.numParts + c.groups.length + 1))
      haccounts.records hperm ?_ ?_ ?_ <;> omega
  · intro hrecords hparts hgroups
    exact metered_recordAll Double.countsBelow_double haccounts.records hperm hrecords hparts (hlength ▸ hgroups)

theorem process_accounted_heavyAndLight :
    let p : Processor Strip := { sites := some Strip.sitesWithin }
    let pass := p.process .sequential default heavyAndLight
    (heavyAndLight.groups.map SourceGroup.id).Nodup ∧ pass.result = .ok (default : PassStamp).times ∧
      ∃ report, pass.composite.report = some report ∧ p.Accounts heavyAndLight pass.composite report ∧
        Metered heavyAndLight pass.composite report (Telemetry.empty.recordAll pass.events : Telemetry Float) ∧
        report.numParts = 3 ∧ report.numDropped = 1 ∧ report.records.length = 3 := by
  intro p pass
  have groups : (heavyAndLight.groups.map SourceGroup.id).Nodup := by decide +kernel
  have ok : pass.result = .ok (default : PassStamp).times := by decide +kernel
  have numbers : pass.composite.report.map (fun report =>
      (report.numParts, report.numDropped, report.records.length)) = some (3, 1, 3) := by decide +kernel
  obtain ⟨report, hreport, accounts, -, metered⟩ := process_accounted p .sequential default heavyAndLight groups ok
  rw [show pass.composite.report = some report from hreport] at numbers
  obtain ⟨hparts, hrest⟩ := Prod.mk.inj (Option.some.inj numbers)
  obtain ⟨hdropped, hlength⟩ := Prod.mk.inj hrest
  have hcount : heavyAndLight.groups.length = 2 := rfl
  exact ⟨groups, ok, report, hreport, accounts, metered (by omega) (by omega) (by omega), hparts, hdropped, hlength⟩

end Processor
end SeismicHazard
