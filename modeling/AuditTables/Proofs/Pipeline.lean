import AuditTables.Pipeline
import AuditTables.Proofs.Table.Draining
import Mathlib.Logic.Function.Iterate

/-!
# `AuditTables.Proofs.Pipeline`: whole runs of a pipeline

A run is compared with the sources alone. `polls` asks them one after the other and keeps the
batches, with no tables and no stopping. `schedule` is the order in which a number of passes asks
them. `EndsAfter` reads off the world after each pass when a pipeline has to stop, and why.

`run_ends` is the main fact. A run with tables and sources that ends has made the passes that
`EndsAfter` counts and no others: the world is the one that the schedule leaves, and each table
has taken every batch with events, in the order in which they were fetched. A run that has to
end does, if its bound allows. Nothing is assumed of the sources, so a world may break a source,
ask the pipeline to stop, or keep a list of the polls it has seen.

`Tracks` is the invariant. One poll extends it by one source (`tracks_pollSource`), hence a
pass by all sources, and the turns of a run by one pass each.

A run without tables is another matter. Its turns are waits, so no source is polled or asked for its
health, and it ends only when it is asked to (`run_idles`). If all sources are broken it goes on
waiting (`run_idles_lastCall`).
-/

set_option autoImplicit false

namespace AuditTables.Proofs

open AuditTables.Source AuditTables.Table Pipeline
open AuditTables.Proofs.Table

section

variable {ω : Type} {s : Sources ω} {w : ω}

/-! ### Sources without a pipeline -/

/-- The batches that sources give when they are polled one after the other, and the world after
them. -/
def polls (s : Sources ω) : List Nat → ω → List Batch × ω
  | [], w => ([], w)
  | source :: rest, w =>
    let (batch, world) := s.poll source w
    let (batches, last) := polls s rest world
    (batch :: batches, last)

/-- The order in which a number of passes polls the sources. -/
def schedule (s : Sources ω) (passes : Nat) : List Nat :=
  (List.replicate passes (List.range s.count)).flatten

/-- The world after a number of passes. -/
def worldAfter (s : Sources ω) (w : ω) (passes : Nat) : ω := (polls s (schedule s passes) w).2

/-- The batches with events, in the order in which they were fetched. -/
def withEvents (batches : List Batch) : List (List AuditEvent) :=
  (batches.map (·.events)).filter fun events => !events.isEmpty

/-- A table that is given batches, one after the other. -/
def processAll (t : LiveTable) (batches : List (List AuditEvent)) : LiveTable :=
  batches.foldl (fun t events => (t.process events).1) t

/-- A pass, counted from one, leaves all sources broken with these codes. -/
def LeavesBroken (s : Sources ω) (w : ω) (passes : Nat) (codes : List Nat) : Prop :=
  0 < passes ∧
    (List.range s.count).map (fun source => s.health source (worldAfter s w passes))
      = codes.map .broken

/-- A pipeline makes so many passes. It is not asked to stop before any of them, and only the last
one may leave all sources broken. -/
structure Makes (s : Sources ω) (w : ω) (passes : Nat) : Prop where
  unasked : ∀ i < passes, s.stopping (worldAfter s w i) = false
  alive : ∀ i < passes, ∀ codes, ¬ LeavesBroken s w i codes

/-- A pipeline has to stop after so many passes. The last of them has left all sources broken, or
it has not and the pipeline is asked to stop before the next one. -/
def EndsAfter (s : Sources ω) (w : ω) (passes : Nat) : Ending → Prop
  | .asked => Makes s w passes ∧ (∀ codes, ¬ LeavesBroken s w passes codes) ∧
      s.stopping (worldAfter s w passes) = true
  | .noSources => False
  | .allBroken codes => Makes s w passes ∧ LeavesBroken s w passes codes

/-- Polls in two parts go one part after the other. -/
theorem polls_append (first second : List Nat) (w : ω) :
    polls s (first ++ second) w
      = ((polls s first w).1 ++ (polls s second (polls s first w).2).1,
          (polls s second (polls s first w).2).2) := by
  induction first generalizing w with
  | nil => rfl
  | cons source rest ih => simp only [List.cons_append, polls, ih]

/-- One more pass polls every source once more. -/
theorem schedule_succ (passes : Nat) :
    schedule s (passes + 1) = schedule s passes ++ List.range s.count := by
  rw [schedule, List.replicate_succ', List.flatten_append, List.flatten_singleton]
  rfl

/-- Each source is polled once in each pass, by induction on the passes. -/
theorem count_schedule {source : Nat} (h : source < s.count) (passes : Nat) :
    (schedule s passes).count source = passes := by
  induction passes with
  | zero => rfl
  | succ passes ih =>
      have honce : (List.range s.count).count source = 1 :=
        List.count_eq_one_of_mem List.nodup_range (List.mem_range.mpr h)
      rw [schedule_succ, List.count_append, ih, honce]

theorem withEvents_append (first second : List Batch) :
    withEvents (first ++ second) = withEvents first ++ withEvents second := by
  rw [withEvents, List.map_append, List.filter_append]
  rfl

theorem processAll_append (t : LiveTable) (first second : List (List AuditEvent)) :
    processAll t (first ++ second) = processAll (processAll t first) second := List.foldl_append

/-- A source has a code exactly when it is broken with it. -/
theorem code?_eq_some_iff {health : Health} {code : Nat} :
    health.code? = some code ↔ health = .broken code := by
  cases health <;> simp [Health.code?]

/-- Codes are found exactly when all sources are broken with them. -/
theorem allBroken?_eq_some_iff {codes : List Nat} :
    allBroken? s w = some codes ↔
      (List.range s.count).map (fun source => s.health source w) = codes.map .broken := by
  rw [Pipeline.allBroken?]
  -- The sources play no part in this: it holds of the healths of any list.
  generalize List.range s.count = sources
  induction sources generalizing codes with
  | nil => cases codes <;> simp
  | cons source rest ih =>
      cases codes with
      | nil => simp [List.mapM_cons, Option.bind_eq_some_iff]
      | cons code codes =>
          simp [List.mapM_cons, Option.bind_eq_some_iff, ih, code?_eq_some_iff]

/-- After a pass, codes are found exactly when it has left all sources broken with them. -/
theorem leavesBroken_iff {passes : Nat} (h : 0 < passes) {codes : List Nat} :
    LeavesBroken s w passes codes ↔ allBroken? s (worldAfter s w passes) = some codes := by
  rw [allBroken?_eq_some_iff, LeavesBroken, and_iff_right h]

/-! ### Passes -/

/-- A pipeline has come to a place by polling some sources. -/
structure Tracks (s : Sources ω) (start : Pipeline ω) (polled : List Nat) (p : Pipeline ω) :
    Prop where
  world : p.world = (polls s polled start.world).2
  tables : p.registry.tables = start.registry.tables.map
    (processAll · (withEvents (polls s polled start.world).1))

theorem tracks_start (start : Pipeline ω) : Tracks s start [] start :=
  ⟨rfl, (List.map_id _).symm⟩

/-- The batch of one poll goes to every table, unless it has no events. -/
theorem pollSource_eq (p : Pipeline ω) (source : Nat) :
    (pollSource s p source).1.world = (s.poll source p.world).2 ∧
      (pollSource s p source).1.registry.tables
        = p.registry.tables.map (processAll · (withEvents [(s.poll source p.world).1])) := by
  rw [Pipeline.pollSource]
  cases hevents : (s.poll source p.world).1.events with
  | nil =>
      simp [hevents, withEvents, processAll]
  | cons event events =>
      simp [hevents, withEvents, processAll, dispatch, tables_dispatch]

/-- A poll extends what was polled by one source. -/
theorem tracks_pollSource {start p : Pipeline ω} {polled : List Nat} (h : Tracks s start polled p)
    (source : Nat) : Tracks s start (polled ++ [source]) (pollSource s p source).1 := by
  obtain ⟨hworld, htables⟩ := pollSource_eq (s := s) p source
  have hpolls : polls s [source] p.world
      = ([(s.poll source p.world).1], (s.poll source p.world).2) := rfl
  constructor
  · rw [hworld, polls_append, ← h.world, hpolls]
  · rw [htables, h.tables, List.map_map, polls_append, ← h.world, hpolls]
    refine List.map_congr_left fun t _ => ?_
    rw [withEvents_append, processAll_append]
    rfl

/-- A pass extends what was polled by all sources, by induction on those it still has to
poll. -/
theorem tracks_pass {start p : Pipeline ω} {polled : List Nat} (h : Tracks s start polled p) :
    Tracks s start (polled ++ List.range s.count) (pass s p).1 := by
  rw [Pipeline.pass]
  generalize List.range s.count = sources
  generalize 0 = dispatched
  induction sources generalizing p polled dispatched with
  | nil => exact (List.append_nil polled).symm ▸ h
  | cons source rest ih =>
      have happend : polled ++ source :: rest = (polled ++ [source]) ++ rest :=
        List.append_cons polled source rest
      rw [happend, List.foldl_cons]
      exact ih (tracks_pollSource h source) _

/-- A pipeline with tables keeps them. -/
theorem isEmpty_of_tracks {start p : Pipeline ω} {polled : List Nat} (h : Tracks s start polled p)
    (hstart : start.registry.isEmpty = false) : p.registry.isEmpty = false := by
  rw [Registry.isEmpty, h.tables, List.isEmpty_map]
  exact hstart

/-! ### Endings -/

theorem makes_zero : Makes s w 0 :=
  ⟨fun _ hi => absurd hi (Nat.not_lt_zero _), fun _ hi => absurd hi (Nat.not_lt_zero _)⟩

theorem not_leavesBroken_zero (codes : List Nat) : ¬ LeavesBroken s w 0 codes :=
  fun h => Nat.lt_irrefl 0 h.1

/-- One more pass is made when the last one has left a source, and no stop is asked for. -/
theorem makes_succ {passes : Nat} (h : Makes s w passes)
    (halive : ∀ codes, ¬ LeavesBroken s w passes codes)
    (hunasked : s.stopping (worldAfter s w passes) = false) : Makes s w (passes + 1) := by
  constructor
  · intro i hi
    rcases Nat.lt_succ_iff_lt_or_eq.mp hi with hlt | rfl
    · exact h.unasked i hlt
    · exact hunasked
  · intro i hi
    rcases Nat.lt_succ_iff_lt_or_eq.mp hi with hlt | rfl
    · exact h.alive i hlt
    · exact halive

/-- No pass is made after the one that a pipeline has to stop at. -/
theorem not_makes_of_endsAfter {passes more : Nat} {ending : Ending}
    (h : EndsAfter s w passes ending) (hmore : passes < more) : ¬ Makes s w more := by
  intro hmakes
  cases ending with
  | asked =>
      have hunasked := hmakes.unasked passes hmore
      rw [h.2.2] at hunasked
      cases hunasked
  | noSources => exact h
  | allBroken codes => exact hmakes.alive passes hmore codes h.2

/-- A pipeline makes the passes after which it has to stop. -/
theorem makes_of_endsAfter {passes : Nat} {ending : Ending} (h : EndsAfter s w passes ending) :
    Makes s w passes := by
  cases ending with
  | asked => exact h.1
  | noSources => exact h.elim
  | allBroken codes => exact h.1

/-- There is one number of passes after which a pipeline has to stop, and one reason. -/
theorem endsAfter_unique {passes passes' : Nat} {ending ending' : Ending}
    (h : EndsAfter s w passes ending) (h' : EndsAfter s w passes' ending') :
    passes = passes' ∧ ending = ending' := by
  have hpasses : passes = passes' := by
    rcases Nat.lt_trichotomy passes passes' with hlt | heq | hlt
    · exact absurd (makes_of_endsAfter h') (not_makes_of_endsAfter h hlt)
    · exact heq
    · exact absurd (makes_of_endsAfter h) (not_makes_of_endsAfter h' hlt)
  subst hpasses
  refine ⟨rfl, ?_⟩
  cases ending with
  | asked =>
      cases ending' with
      | asked => rfl
      | noSources => exact h'.elim
      | allBroken codes => exact absurd h'.2 (h.2.1 codes)
  | noSources => exact h.elim
  | allBroken codes =>
      cases ending' with
      | asked => exact absurd h.2 (h'.2.1 codes)
      | noSources => exact h'.elim
      | allBroken codes' =>
          have hcodes : codes.map Health.broken = codes'.map Health.broken :=
            h.2.2.symm.trans h'.2.2
          have hinjective : Function.Injective Health.broken := fun _ _ heq => by cases heq; rfl
          rw [List.map_injective_iff.mpr hinjective hcodes]

/-! ### Turns -/

/-- How a pipeline is left that has ended after so many passes. The world is the one that these
polls leave, and each table has taken the batches with events, in the order of the polls. -/
structure Ended (s : Sources ω) (start : Pipeline ω) (passes : Nat) (ending : Ending)
    (p : Pipeline ω) : Prop where
  endsAfter : EndsAfter s start.world passes ending
  world : p.world = worldAfter s start.world passes
  tables : p.registry.tables = start.registry.tables.map
    (processAll · (withEvents (polls s (schedule s passes) start.world).1))

/-- Turns from a place between two passes either end a pipeline as it has to be left, or are spent
on passes that do not end it. The induction is on the bound: a turn ends the pipeline, or goes on
from the place after one pass more. -/
theorem turns_outcome {start p : Pipeline ω} (hstart : start.registry.isEmpty = false)
    {passes : Nat} (htracks : Tracks s start (schedule s passes) p)
    (hmakes : Makes s start.world passes)
    (halive : ∀ codes, ¬ LeavesBroken s start.world passes codes) (bound : Nat) :
    match turns s bound p with
    | some (ending, p') => ∃ last, Ended s start last ending p'
    | none => Makes s start.world (passes + bound) := by
  induction bound generalizing p passes with
  | zero => exact hmakes
  | succ bound ih =>
      have hworld : p.world = worldAfter s start.world passes := htracks.world
      rw [Pipeline.turns, isEmpty_of_tracks htracks hstart]
      cases hstop : s.stopping p.world with
      | true => exact ⟨passes, ⟨hmakes, halive, hworld ▸ hstop⟩, hworld, htracks.tables⟩
      | false =>
          -- One more pass is made, and the invariant holds where it leads.
          have hmakes' := makes_succ hmakes halive (hworld ▸ hstop)
          have htracks' : Tracks s start (schedule s (passes + 1)) (pass s p).1 := by
            rw [schedule_succ]
            exact tracks_pass htracks
          have hworld' : (pass s p).1.world = worldAfter s start.world (passes + 1) :=
            htracks'.world
          have hbroken : ∀ codes, LeavesBroken s start.world (passes + 1) codes ↔
              allBroken? s (pass s p).1.world = some codes := by
            intro codes
            rw [hworld']
            exact leavesBroken_iff (Nat.succ_pos passes)
          -- Either it has left all sources broken, or the turns go on from there.
          cases hcodes : allBroken? s (pass s p).1.world with
          | some codes =>
              simp only [hcodes, Bool.false_eq_true, if_false]
              exact ⟨passes + 1, ⟨hmakes', (hbroken codes).mpr hcodes⟩, hworld', htracks'.tables⟩
          | none =>
              simp only [hcodes, Bool.false_eq_true, if_false]
              have halive' : ∀ codes, ¬ LeavesBroken s start.world (passes + 1) codes := by
                intro codes hleaves
                rw [hbroken, hcodes] at hleaves
                cases hleaves
              have hrest := ih htracks' hmakes' halive'
              rwa [Nat.add_right_comm, Nat.add_assoc] at hrest

/-- A run with sources ends as its turns do. -/
theorem run_eq_turns (h : s.count ≠ 0) (bound : Nat) (p : Pipeline ω) :
    run s bound p = turns s bound p := if_neg h

/-- A run that has to stop after so many passes ends, if its bound allows one turn more. -/
theorem exists_run_of_endsAfter {p : Pipeline ω} (hcount : s.count ≠ 0)
    (hregistry : p.registry.isEmpty = false) {passes : Nat} {ending : Ending}
    (h : EndsAfter s p.world passes ending) {bound : Nat} (hbound : passes < bound) :
    ∃ p', run s bound p = some (ending, p') := by
  have houtcome := turns_outcome hregistry (tracks_start (s := s) p) makes_zero
    not_leavesBroken_zero bound
  rw [run_eq_turns hcount]
  cases hturns : turns s bound p with
  | none =>
      -- All turns would be passes, more of them than there can be.
      rw [hturns, Nat.zero_add] at houtcome
      exact absurd houtcome (not_makes_of_endsAfter h hbound)
  | some result =>
      obtain ⟨ending', p'⟩ := result
      rw [hturns] at houtcome
      obtain ⟨last, hended⟩ := houtcome
      obtain ⟨-, rfl⟩ := endsAfter_unique h hended.endsAfter
      exact ⟨p', rfl⟩

/-! ### The main fact -/

/-- How a pipeline runs. Without sources it fails at once and polls nothing, whether or not it is
asked to stop. With sources and tables, a run that ends has made some number of passes, has to stop
after these, and has given every batch to every table. The passes have polled the sources in order,
each of them once in a pass. Conversely, a run that has to stop after a number of passes ends for
that reason, if it may take one turn more than these. -/
theorem run_ends (s : Sources ω) (p : Pipeline ω) :
    (s.count = 0 → ∀ bound, run s bound p = some (.noSources, p)) ∧
    (s.count ≠ 0 → p.registry.isEmpty = false →
      (∀ bound ending p', run s bound p = some (ending, p') →
        ∃ passes, Ended s p passes ending p' ∧
          ∀ source < s.count, (schedule s passes).count source = passes) ∧
      (∀ passes ending, EndsAfter s p.world passes ending → ∀ bound, passes < bound →
        ∃ p', run s bound p = some (ending, p'))) := by
  constructor
  · intro hcount bound
    exact if_pos hcount
  intro hcount hregistry
  constructor
  · intro bound ending p' hrun
    have houtcome := turns_outcome hregistry (tracks_start (s := s) p) makes_zero
      not_leavesBroken_zero bound
    rw [← run_eq_turns hcount, hrun] at houtcome
    obtain ⟨passes, hended⟩ := houtcome
    exact ⟨passes, hended, fun source hsource => count_schedule hsource passes⟩
  · intro passes ending h bound hbound
    exact exists_run_of_endsAfter hcount hregistry h hbound

end

/-- Two sources over a world that keeps the polls it has seen. Each gives an event at every poll and
breaks at its second one, and the last of these polls asks the pipeline to stop. -/
def shortLived : Sources (List Nat) where
  count := 2
  poll source polled := (⟨[AuditEvent.blank], []⟩, polled ++ [source])
  health source polled := if polled.count source < 2 then .active else .broken (15 + source)
  stopping polled := polled.length == 4
  wait := id

/-- Sources that break while they still give events and a stop is asked for. Both passes are made
in order, all events arrive, and the run fails. -/
theorem run_ends_shortLived :
    let p : Pipeline (List Nat) := ⟨[], Registry.new 10 ["winevtlog"], []⟩
    ∃ p', run shortLived 3 p = some (.allBroken [15, 16], p') ∧ p'.world = [0, 1, 0, 1] ∧
      p'.registry.tables.map (·.queue.items.length) = [4] := by
  intro p
  have hends : EndsAfter shortLived p.world 2 (.allBroken [15, 16]) := by
    refine ⟨⟨by decide, fun i hi codes => ?_⟩, by decide, rfl⟩
    match i, hi with
    | 0, _ => exact not_leavesBroken_zero codes
    | 1, _ =>
        rw [leavesBroken_iff Nat.one_pos]
        exact fun h => nomatch h
  obtain ⟨hresult, hends'⟩ := (run_ends shortLived p).2 (by decide) (by decide)
  obtain ⟨p', hrun⟩ := hends' 2 _ hends 3 (by decide)
  obtain ⟨passes, hended, -⟩ := hresult 3 _ p' hrun
  obtain ⟨rfl, -⟩ := endsAfter_unique hends hended.endsAfter
  refine ⟨p', hrun, hended.world, ?_⟩
  rw [hended.tables]
  decide

/-! ### Runs without tables -/

section

variable {ω : Type} {s : Sources ω}

/-- A pipeline that only waits is asked to stop after so many waits, and not before. -/
structure AskedAfter (s : Sources ω) (w : ω) (waits : Nat) : Prop where
  unasked : ∀ i < waits, s.stopping (s.wait^[i] w) = false
  asked : s.stopping (s.wait^[waits] w) = true

/-- One wait more is needed if no stop is asked for before it. -/
theorem askedAfter_succ {w : ω} (hstop : s.stopping w = false) {waits : Nat} :
    AskedAfter s w (waits + 1) ↔ AskedAfter s (s.wait w) waits := by
  constructor
  · intro h
    exact ⟨fun i hi => h.unasked (i + 1) (Nat.succ_lt_succ hi), h.asked⟩
  · intro h
    refine ⟨fun i hi => ?_, h.asked⟩
    cases i with
    | zero => exact hstop
    | succ i => exact h.unasked i (Nat.lt_of_succ_lt_succ hi)

/-- Turns without tables end only when the pipeline is asked to stop, and have waited until then.
The induction is on the bound: each turn is a wait, or the end. -/
theorem turns_idle {p p' : Pipeline ω} (h : p.registry.isEmpty = true) {bound : Nat}
    {ending : Ending} :
    turns s bound p = some (ending, p') ↔ ending = .asked ∧ ∃ waits < bound,
      AskedAfter s p.world waits ∧ p' = { p with world := s.wait^[waits] p.world } := by
  induction bound generalizing p with
  | zero => simp [Pipeline.turns]
  | succ bound ih =>
      rw [Pipeline.turns, h]
      cases hstop : s.stopping p.world with
      | true =>
          simp only [if_true, Option.some.injEq, Prod.mk.injEq]
          constructor
          · rintro ⟨rfl, rfl⟩
            exact ⟨rfl, 0, Nat.succ_pos bound, ⟨nofun, hstop⟩, rfl⟩
          · rintro ⟨rfl, waits, -, hasked, rfl⟩
            -- No wait is made, as a stop is asked for before the first one.
            cases waits with
            | zero => exact ⟨rfl, rfl⟩
            | succ waits =>
                have hunasked := hasked.unasked 0 (Nat.succ_pos waits)
                exact absurd (hstop.symm.trans hunasked) (by decide)
      | false =>
          simp only [Bool.false_eq_true, if_false, if_true]
          rw [ih (p := { p with world := s.wait p.world }) h]
          refine and_congr_right fun _ => ?_
          constructor
          · rintro ⟨waits, hlt, hasked, rfl⟩
            exact ⟨waits + 1, Nat.succ_lt_succ hlt, (askedAfter_succ hstop).mpr hasked, rfl⟩
          · rintro ⟨waits, hlt, hasked, rfl⟩
            cases waits with
            | zero => exact absurd (hstop.symm.trans hasked.asked) (by decide)
            | succ waits =>
                exact ⟨waits, Nat.lt_of_succ_lt_succ hlt, (askedAfter_succ hstop).mp hasked, rfl⟩

/-- How a pipeline with sources and without tables runs: it waits until it is asked to stop. The
world has seen these waits and no poll, and what the sources have or whether they are broken makes
no difference. -/
theorem run_idles {p p' : Pipeline ω} (hcount : s.count ≠ 0) (h : p.registry.isEmpty = true)
    {bound : Nat} {ending : Ending} :
    run s bound p = some (ending, p') ↔ ending = .asked ∧ ∃ waits < bound,
      AskedAfter s p.world waits ∧ p' = { p with world := s.wait^[waits] p.world } := by
  rw [run_eq_turns hcount]
  exact turns_idle h

end

/-- One source over a world that counts its polls. It gives an event at the first one and is broken
from then on, and nobody asks the pipeline to stop. -/
def lastCall : Sources Nat where
  count := 1
  poll _ polled := (⟨[AuditEvent.blank], []⟩, polled + 1)
  health _ polled := if polled = 0 then .active else .broken 5
  stopping _ := false
  wait := id

/-- One pass would take the event and leave every source broken. With a table, the run ends so. If
the only table that is named is unknown, no run ends, and the event is never fetched. -/
theorem run_idles_lastCall :
    LeavesBroken lastCall 0 1 [5] ∧
      (∃ p', run lastCall 2 ⟨0, Registry.new 10 ["winevtlog"], []⟩ = some (.allBroken [5], p')) ∧
      ∀ bound, run lastCall bound ⟨0, Registry.new 10 ["bogus"], []⟩ = none := by
  have hbroken : LeavesBroken lastCall 0 1 [5] := ⟨Nat.one_pos, rfl⟩
  have hends : EndsAfter lastCall 0 1 (.allBroken [5]) :=
    ⟨makes_succ makes_zero not_leavesBroken_zero rfl, hbroken⟩
  refine ⟨hbroken, ?_, fun bound => ?_⟩
  · exact exists_run_of_endsAfter (by decide) (by decide) hends (by decide)
  · cases hrun : run lastCall bound ⟨0, Registry.new 10 ["bogus"], []⟩ with
    | none => rfl
    | some result =>
        obtain ⟨ending, p'⟩ := result
        have hidles := (run_idles (by decide) (by decide)).mp hrun
        obtain ⟨-, waits, -, hasked, -⟩ := hidles
        exact absurd hasked.asked Bool.false_ne_true

end AuditTables.Proofs
