import SeismicHazard.Proofs.Number.Counts
import SeismicHazard.Telemetry.Basic
/-!
# Counting — what telemetry shows after some events

Every counter and histogram is raised by each event in its own way, and only by a number that the event decides.  So what
it shows in the end is the total of these numbers (`Raised.shows_total`), as long as counts add up exactly in the numbers
that it is kept in.  `tallies_recordAll` puts the counters together.
-/
namespace SeismicHazard

theorem total_map_toNat {α : Type} (p : α → Bool) : ∀ l : List α, total (l.map (fun a => (p a).toNat)) = l.countP p
  | [] => rfl
  | a :: l => by
    rw [List.map_cons, total_cons, total_map_toNat p l, List.countP_cons, Nat.add_comm]
    cases p a <;> rfl

theorem SourceKind.sourceName_inj {a b : SourceKind} : a.sourceName = b.sourceName ↔ a = b := by
  cases a <;> cases b <;> decide

theorem RunMode.name_inj {a b : RunMode} : a.name = b.name ↔ a = b := by
  cases a <;> cases b <;> decide

namespace TelemetryEvent

def parts : TelemetryEvent → Nat
  | source _ _ n _ _ => n
  | emptyGroup => 0

def isSource : TelemetryEvent → Bool
  | source .. => true
  | emptyGroup => false

def isSourceOf (kind : SourceKind) (mode : RunMode) : TelemetryEvent → Bool
  | source k m _ _ _ => decide (k = kind ∧ m = mode)
  | emptyGroup => false

def isDropped : TelemetryEvent → Bool
  | source _ _ n _ _ => decide (n = 0)
  | emptyGroup => false

def isEmptyGroup : TelemetryEvent → Bool
  | source .. => false
  | emptyGroup => true

theorem isSource_of_isSourceOf {kind : SourceKind} {mode : RunMode} {e : TelemetryEvent}
    (h : e.isSourceOf kind mode = true) : e.isSource = true := by
  cases e with
  | source => rfl
  | emptyGroup => cases h

theorem isSource_of_isDropped {e : TelemetryEvent} (h : e.isDropped = true) : e.isSource = true := by
  cases e with
  | source => rfl
  | emptyGroup => cases h

end TelemetryEvent

namespace Telemetry

open TelemetryEvent

variable {N : Type} [Scalar N] {limit : Nat}

/-! ## One counter -/

/-- Every event raises a reading by its own number, as long as it stays below the limit. -/
def Raised (limit : Nat) (Shows : Telemetry N → Nat → Prop) (raise : TelemetryEvent → Nat) : Prop :=
  ∀ (t : Telemetry N) (n : Nat) (e : TelemetryEvent), n + raise e < limit → Shows t n → Shows (t.record e) (n + raise e)

theorem Raised.recordAll {Shows : Telemetry N → Nat → Prop} {raise : TelemetryEvent → Nat}
    (step : Raised limit Shows raise) : ∀ (events : List TelemetryEvent) {t : Telemetry N} {n : Nat},
    n + total (events.map raise) < limit → Shows t n → Shows (t.recordAll events) (n + total (events.map raise))
  | [], _, _, _, h => h
  | e :: events, t, n, hlimit, h => by
    rw [List.map_cons, total_cons, ← Nat.add_assoc] at hlimit ⊢
    exact step.recordAll events hlimit (step t n e (by omega) h)

theorem Raised.shows_total {Shows : Telemetry N → Nat → Prop} {raise : TelemetryEvent → Nat}
    (step : Raised limit Shows raise) {events : List TelemetryEvent} (hlimit : total (events.map raise) < limit)
    (h : Shows empty 0) : Shows (empty.recordAll events) (total (events.map raise)) := by
  have hrun := step.recordAll events (t := empty) (n := 0)
  rw [Nat.zero_add] at hrun
  exact hrun hlimit h

/-- A reading that each event of a sort raises by one ends at the number of these events. -/
theorem Raised.shows_countP {Shows : Telemetry N → Nat → Prop} {p : TelemetryEvent → Bool}
    (step : Raised limit Shows (fun e => (p e).toNat)) {events : List TelemetryEvent}
    (hlimit : events.countP p < limit) (h : Shows empty 0) : Shows (empty.recordAll events) (events.countP p) := by
  rw [← total_map_toNat] at hlimit ⊢
  exact step.shows_total hlimit h

def shown (n : Nat) : Option N := if n = 0 then none else some (Scalar.ofNat n)

theorem increment_shown (hN : CountsBelow N limit) {n : Nat} (h : n + 1 < limit) :
    increment (shown n : Option N) = Scalar.ofNat (n + 1) := by
  have hadd : (Scalar.ofNat n + Scalar.ofNat 1 : N) = Scalar.ofNat (n + 1) := hN n 1 h
  unfold increment shown
  by_cases hn : n = 0
  · subst hn
    exact hadd
  · rw [if_neg hn]
    exact hadd

omit [Scalar N] in
theorem processedBy_eq (t : Telemetry N) (kind : SourceKind) (mode : RunMode) :
    t.processedBy kind mode = ((t.processed.get? kind.sourceName).getD .empty).get? mode.name := by
  unfold processedBy
  cases t.processed.get? kind.sourceName <;> rfl

theorem processedBy_record (t : Telemetry N) (e : TelemetryEvent) (kind : SourceKind) (mode : RunMode) :
    (t.record e).processedBy kind mode =
      if e.isSourceOf kind mode then some (increment (t.processedBy kind mode)) else t.processedBy kind mode := by
  cases e with
  | emptyGroup => rfl
  | source k m parts filterTime splitTime =>
    rw [processedBy_eq, processedBy_eq]
    unfold record countProcessed isSourceOf
    dsimp only
    rw [SortedMap.get?_update]
    by_cases hk : kind = k
    · subst hk
      rw [if_pos Std.ReflCmp.compare_self, Option.getD_some, SortedMap.get?_update]
      by_cases hm : mode = m
      · subst hm
        simp
      · have hname : compare mode.name m.name ≠ .eq := fun h =>
          hm (RunMode.name_inj.1 (Std.LawfulEqCmp.eq_of_compare h))
        rw [if_neg hname, if_neg (by simpa using Ne.symm hm)]
    · have hname : compare kind.sourceName k.sourceName ≠ .eq := fun h =>
        hk (SourceKind.sourceName_inj.1 (Std.LawfulEqCmp.eq_of_compare h))
      rw [if_neg hname, if_neg (by simpa using fun h => absurd h (Ne.symm hk))]

/-! ## All counters -/

structure Tallies (t : Telemetry N) (events : List TelemetryEvent) : Prop where
  processed : ∀ kind mode, t.processedBy kind mode = shown (events.countP (isSourceOf kind mode))
  dropped : t.dropped = Scalar.ofNat (events.countP isDropped)
  parts : t.parts = Scalar.ofNat (total (events.map TelemetryEvent.parts))
  emptyGroups : t.emptyGroups = Scalar.ofNat (events.countP isEmptyGroup)
  filterSeconds : t.filterSeconds.count = events.countP isSource
  splitSeconds : t.splitSeconds.count = events.countP isSource

theorem raised_processed (hN : CountsBelow N limit) (kind : SourceKind) (mode : RunMode) :
    Raised limit (fun (t : Telemetry N) n => t.processedBy kind mode = shown n)
      (fun e => (e.isSourceOf kind mode).toNat) := by
  intro t n e hn h
  dsimp only at hn h ⊢
  rw [processedBy_record, h]
  cases he : e.isSourceOf kind mode with
  | false => rfl
  | true =>
    rw [he] at hn
    rw [if_pos rfl, increment_shown hN hn]
    rfl

theorem raised_dropped (hN : CountsBelow N limit) :
    Raised limit (fun (t : Telemetry N) n => t.dropped = Scalar.ofNat n) (fun e => e.isDropped.toNat) := by
  intro t n e hn h
  dsimp only at hn h ⊢
  cases e with
  | emptyGroup => exact h
  | source kind mode parts filterTime splitTime =>
    change (if parts = 0 then t.dropped + Scalar.one else t.dropped) = Scalar.ofNat (n + (decide (parts = 0)).toNat)
    by_cases hp : parts = 0
    · rw [isDropped, decide_eq_true hp] at hn
      rw [if_pos hp, decide_eq_true hp, h]
      exact hN n 1 hn
    · rw [if_neg hp, decide_eq_false hp]
      exact h

theorem raised_parts (hN : CountsBelow N limit) :
    Raised limit (fun (t : Telemetry N) n => t.parts = Scalar.ofNat n) TelemetryEvent.parts := by
  intro t n e hn h
  cases e with
  | emptyGroup => exact h
  | source kind mode parts filterTime splitTime =>
    change t.parts + Scalar.ofNat parts = _
    rw [h]
    exact hN n parts hn

theorem raised_emptyGroups (hN : CountsBelow N limit) :
    Raised limit (fun (t : Telemetry N) n => t.emptyGroups = Scalar.ofNat n) (fun e => e.isEmptyGroup.toNat) := by
  intro t n e hn h
  dsimp only at hn h ⊢
  cases e with
  | source => exact h
  | emptyGroup =>
    change t.emptyGroups + Scalar.one = _
    rw [h]
    exact hN n 1 hn

theorem raised_seconds : Raised limit (fun (t : Telemetry N) n => t.filterSeconds.count = n ∧ t.splitSeconds.count = n)
    (fun e => e.isSource.toNat) := by
  rintro t n e - ⟨hfilter, hsplit⟩
  cases e with
  | emptyGroup => exact ⟨hfilter, hsplit⟩
  | source => exact ⟨congrArg (· + 1) hfilter, congrArg (· + 1) hsplit⟩

/-- **New telemetry shows the events that it recorded**, as long as counts add up exactly. -/
theorem tallies_recordAll (hN : CountsBelow N limit) {events : List TelemetryEvent}
    (hsources : events.countP isSource < limit) (hparts : total (events.map TelemetryEvent.parts) < limit)
    (hgroups : events.countP isEmptyGroup < limit) : Tallies (empty.recordAll events : Telemetry N) events := by
  have hseconds := raised_seconds.shows_countP (N := N) hsources ⟨rfl, rfl⟩
  refine ⟨fun kind mode => ?_, ?_, ?_, ?_, hseconds.1, hseconds.2⟩
  · have hle : events.countP (isSourceOf kind mode) ≤ events.countP isSource :=
      List.countP_mono_left fun _ _ => isSource_of_isSourceOf
    exact (raised_processed hN kind mode).shows_countP (Nat.lt_of_le_of_lt hle hsources) rfl
  · have hle : events.countP isDropped ≤ events.countP isSource :=
      List.countP_mono_left fun _ _ => isSource_of_isDropped
    exact (raised_dropped hN).shows_countP (Nat.lt_of_le_of_lt hle hsources) rfl
  · exact (raised_parts hN).shows_total hparts rfl
  · exact (raised_emptyGroups hN).shows_countP hgroups rfl

theorem Tallies.perm {t : Telemetry N} {events events' : List TelemetryEvent} (h : Tallies t events)
    (hperm : events.Perm events') : Tallies t events' where
  processed kind mode := by rw [h.processed, hperm.countP_eq]
  dropped := by rw [h.dropped, hperm.countP_eq]
  parts := by rw [h.parts, total_perm (hperm.map _)]
  emptyGroups := by rw [h.emptyGroups, hperm.countP_eq]
  filterSeconds := by rw [h.filterSeconds, hperm.countP_eq]
  splitSeconds := by rw [h.splitSeconds, hperm.countP_eq]

end Telemetry
end SeismicHazard
