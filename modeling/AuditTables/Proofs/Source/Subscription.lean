import AuditTables.Source.Channel
import Mathlib.Data.List.Induction
import Mathlib.Data.List.TakeWhile

/-!
# `AuditTables.Proofs.Source.Subscription`: a channel over its whole life

The run model is a channel and a list of what reaches it (`Input`), in any order. The system
delivers an event or the failure to render it, or says that the channel is broken. The owner
drains the buffer or closes the channel. Two of these are terminal. `live` is what comes
before the first of them, and `ending` is that first one.

`subscription_delivers` is the main fact. What has been drained, followed by what still waits,
is the events of the live deliveries, each once and in order. A drain leaves nothing waiting
(`step_drain`). The state is settled by the ending alone, so a channel that was closed first
never breaks, and a broken one keeps its first code. It says that it is broken at most once, and
after the ending it buffers nothing and reports nothing.

`Reached` is the invariant of a run. A step either takes part in it, while the channel accepts
inputs, or is a quiet one that changes nothing but where the events are (`quiet_step`).
-/

set_option autoImplicit false

namespace AuditTables.Proofs.Source

open AuditTables.Source

/-! ### Inputs -/

/-- What can reach a channel. -/
inductive Input where
  /-- The system delivers an event, rendered as text, or the failure to render it. -/
  | deliver (now : Nat) (captureTime : Int) (rendered : Except Failure String)
  /-- The system says that the channel is broken. -/
  | breakDown (code : Nat)
  | close
  | drain

namespace Input

/-- Whether an input ends what a channel takes. -/
def isTerminal : Input → Bool
  | breakDown _ => true
  | close => true
  | _ => false

/-- The event that an input delivers, if it delivers a text that is a record. -/
def event? : Input → Option AuditEvent
  | deliver _ captureTime (.ok text) => (AuditEvent.read captureTime text).toOption
  | _ => none

end Input

/-- The inputs before the first terminal one. -/
def live (inputs : List Input) : List Input := inputs.takeWhile fun i => !i.isTerminal

/-- The first terminal input. -/
def ending (inputs : List Input) : Option Input := inputs.find? Input.isTerminal

/-- The state that a channel is in after it ended, or while it has not. -/
def healthAfter : Option Input → Health
  | some (.breakDown code) => .broken code
  | _ => .active

/-- What a channel of a name has to say about its ending. -/
def breakNotices (name : String) : Option Input → List Notice
  | some (.breakDown code) => [.channelBroken name code]
  | _ => []

/-- Whether a notice says that a channel is broken. -/
def isBreakNotice : Notice → Bool
  | .channelBroken _ _ => true
  | _ => false

/-! ### Runs -/

/-- A channel, the batches that were drained from it, and what it has reported, in order. -/
structure Subscription where
  channel : Channel
  batches : List (List AuditEvent)
  notices : List Notice

namespace Subscription

/-- A channel just subscribed to. -/
def new (name : String) : Subscription := ⟨Channel.new name, [], []⟩

/-- One input. -/
def step (s : Subscription) : Input → Subscription
  | .deliver now captureTime rendered =>
    let (channel, notices) := s.channel.deliver now captureTime rendered
    { s with channel := channel, notices := s.notices ++ notices }
  | .breakDown code =>
    let (channel, notices) := s.channel.markBroken code
    { s with channel := channel, notices := s.notices ++ notices }
  | .close => { s with channel := s.channel.close }
  | .drain =>
    let (events, channel) := s.channel.drain
    { s with channel := channel, batches := s.batches ++ [events] }

/-- Inputs one after the other. -/
def run (s : Subscription) (inputs : List Input) : Subscription := inputs.foldl step s

/-- All events that were taken: those drained, and then those that still wait. -/
def taken (s : Subscription) : List AuditEvent := s.batches.flatten ++ s.channel.buffer.events

end Subscription

/-! ### Deliveries -/

section

variable {c : Channel} {now : Nat} {captureTime : Int} {rendered : Except Failure String}

/-- A report changes what is remembered of reports, and says nothing of a broken channel. -/
theorem report_cases (c : Channel) (now : Nat) (failure : Failure) :
    ∃ throttle notices, c.report now failure = ({ c with throttle := throttle }, notices) ∧
      notices.filter isBreakNotice = [] := by
  rw [Channel.report]
  by_cases hkind : failure.isPerEvent = true
  · rw [if_pos hkind]
    -- A failure of one event is reported or held back, as the throttle decides.
    cases hask : (c.throttle.ask now (Channel.dropKey failure)).2 with
    | none => exact ⟨(c.throttle.ask now (Channel.dropKey failure)).1, [], by simp only [hask], rfl⟩
    | some unreported =>
        exact ⟨(c.throttle.ask now (Channel.dropKey failure)).1,
          [.eventDropped c.name failure unreported], by simp only [hask], rfl⟩
  · rw [if_neg hkind]
    exact ⟨c.throttle, _, rfl, rfl⟩

theorem deliver_of_not_accepting (h : c.accepting = false) :
    c.deliver now captureTime rendered = (c, []) := by
  rw [Channel.deliver, h]
  rfl

theorem deliver_of_ok (h : c.accepting = true) {event : AuditEvent}
    (hevent : Channel.eventOf captureTime rendered = .ok event) :
    c.deliver now captureTime rendered = ({ c with buffer := c.buffer.push event }, []) := by
  simp only [Channel.deliver, h, hevent, if_true]

/-- A delivery that makes no event changes neither the buffer nor the state. -/
theorem deliver_of_error (c : Channel) (now : Nat) {failure : Failure}
    (hevent : Channel.eventOf captureTime rendered = .error failure) :
    ∃ throttle notices, c.deliver now captureTime rendered
        = ({ c with throttle := throttle }, notices) ∧
      notices.filter isBreakNotice = [] := by
  cases haccepting : c.accepting with
  | false => exact ⟨c.throttle, [], deliver_of_not_accepting haccepting, rfl⟩
  | true =>
      obtain ⟨throttle, notices, hreport, hquiet⟩ := report_cases c now failure
      refine ⟨throttle, notices, ?_, hquiet⟩
      simp only [Channel.deliver, haccepting, hevent, hreport, if_true]

/-- The event of an input is the one that the channel makes of the delivery. -/
theorem event?_deliver (now : Nat) :
    (Input.deliver now captureTime rendered).event?
      = (Channel.eventOf captureTime rendered).toOption := by
  cases rendered <;> rfl

end

/-! ### Steps -/

section

variable {s : Subscription}

theorem step_deliver_of_ok {now : Nat} {captureTime : Int} {rendered : Except Failure String}
    {event : AuditEvent} (h : s.channel.accepting = true)
    (hevent : Channel.eventOf captureTime rendered = .ok event) :
    s.step (.deliver now captureTime rendered)
      = { s with channel := { s.channel with buffer := s.channel.buffer.push event } } := by
  simp only [Subscription.step, deliver_of_ok h hevent, List.append_nil]

theorem step_deliver_of_error (s : Subscription) (now : Nat) {captureTime : Int}
    {rendered : Except Failure String} {failure : Failure}
    (hevent : Channel.eventOf captureTime rendered = .error failure) :
    ∃ throttle notices, s.step (.deliver now captureTime rendered)
        = { s with channel := { s.channel with throttle := throttle },
                   notices := s.notices ++ notices } ∧
      notices.filter isBreakNotice = [] := by
  obtain ⟨throttle, notices, hdeliver, hquiet⟩ :=
    deliver_of_error s.channel now hevent
  refine ⟨throttle, notices, ?_, hquiet⟩
  simp only [Subscription.step, hdeliver]

/-- A drain hands out all that waits as one batch, and leaves an empty buffer and nothing else
changed. -/
theorem step_drain (s : Subscription) : s.step .drain
    = { s with channel := { s.channel with buffer := Buffer.empty },
               batches := s.batches ++ [s.channel.buffer.events] } := rfl

/-- Draining moves the events that wait to those that were drained. -/
theorem taken_drain (s : Subscription) : (s.step .drain).taken = s.taken := by
  rw [step_drain]
  show (s.batches ++ [s.channel.buffer.events]).flatten ++ [] = _
  rw [List.append_nil, List.flatten_append, List.flatten_singleton]
  rfl

/-- Neither closed nor broken. -/
theorem health_of_accepting {c : Channel} (h : c.accepting = true) : c.health = .active := by
  rw [Channel.accepting, Bool.and_eq_true] at h
  exact eq_of_beq h.2

/-- What an input does to a channel that accepts inputs. -/
theorem accepting_step (h : s.channel.accepting = true) (i : Input) :
    (s.step i).channel.name = s.channel.name ∧
      (s.step i).channel.accepting = (ending [i]).isNone ∧
      (s.step i).taken = s.taken ++ (live [i]).filterMap Input.event? ∧
      (s.step i).channel.health = healthAfter (ending [i]) ∧
      (s.step i).notices.filter isBreakNotice
        = s.notices.filter isBreakNotice ++ breakNotices s.channel.name (ending [i]) := by
  have hhealth := health_of_accepting h
  cases i with
  | deliver now captureTime rendered =>
    have hlive : (live [.deliver now captureTime rendered]).filterMap Input.event?
        = (Channel.eventOf captureTime rendered).toOption.toList := by
      rw [← event?_deliver now]
      cases hevent : (Input.deliver now captureTime rendered).event? with
      | none => simp [live, Input.isTerminal, hevent]
      | some event => simp [live, Input.isTerminal, hevent]
    rw [hlive]
    cases hevent : Channel.eventOf captureTime rendered with
    | ok event =>
        rw [step_deliver_of_ok h hevent]
        exact ⟨rfl, h, (List.append_assoc _ _ _).symm, hhealth, (List.append_nil _).symm⟩
    | error failure =>
        obtain ⟨throttle, notices, hstep, hquiet⟩ :=
          step_deliver_of_error s now hevent
        rw [hstep]
        refine ⟨rfl, h, (List.append_nil _).symm, hhealth, ?_⟩
        rw [List.filter_append, hquiet]
        rfl
  | breakDown code =>
      have hstep : s.step (.breakDown code)
          = { s with channel := { s.channel with health := .broken code },
                     notices := s.notices ++ [.channelBroken s.channel.name code] } := by
        simp only [Subscription.step, Channel.markBroken, h, if_true]
      rw [hstep]
      refine ⟨rfl, Bool.and_false _, (List.append_nil _).symm, rfl, ?_⟩
      rw [List.filter_append]
      rfl
  | close =>
      exact ⟨rfl, rfl, (List.append_nil _).symm, hhealth, (List.append_nil _).symm⟩
  | drain =>
      refine ⟨rfl, h, ?_, hhealth, (List.append_nil _).symm⟩
      rw [taken_drain]
      exact (List.append_nil _).symm

/-- A channel that does not accept inputs is quiet. Whatever reaches it, it takes no event,
keeps its state and reports nothing. -/
theorem quiet_step (h : s.channel.accepting = false) (i : Input) :
    (s.step i).channel.name = s.channel.name ∧ (s.step i).channel.accepting = false ∧
      (s.step i).taken = s.taken ∧ (s.step i).channel.health = s.channel.health ∧
      (s.step i).notices = s.notices := by
  cases i with
  | deliver now captureTime rendered =>
      have hstep : s.step (.deliver now captureTime rendered) = s := by
        simp only [Subscription.step, deliver_of_not_accepting h, List.append_nil]
      rw [hstep]
      exact ⟨rfl, h, rfl, rfl, rfl⟩
  | breakDown code =>
      have hstep : s.step (.breakDown code) = s := by
        simp only [Subscription.step, Channel.markBroken, h, Bool.false_eq_true, if_false,
          List.append_nil]
      rw [hstep]
      exact ⟨rfl, h, rfl, rfl, rfl⟩
  | close => exact ⟨rfl, rfl, rfl, rfl, rfl⟩
  | drain => exact ⟨rfl, h, taken_drain s, rfl, rfl⟩

/-- A quiet channel stays quiet, by induction on what reaches it. -/
theorem quiet_run (h : s.channel.accepting = false) (inputs : List Input) :
    (s.run inputs).taken = s.taken ∧ (s.run inputs).channel.health = s.channel.health ∧
      (s.run inputs).notices = s.notices := by
  induction inputs generalizing s with
  | nil => exact ⟨rfl, rfl, rfl⟩
  | cons i inputs ih =>
      obtain ⟨-, hquiet, htaken, hhealth, hnotices⟩ := quiet_step h i
      obtain ⟨htaken', hhealth', hnotices'⟩ := ih hquiet
      exact ⟨htaken'.trans htaken, hhealth'.trans hhealth, hnotices'.trans hnotices⟩

end

/-! ### The invariant -/

/-- While nothing terminal has come, all inputs are live. -/
theorem live_eq_self {inputs : List Input} (h : ending inputs = none) : live inputs = inputs := by
  rw [live, List.takeWhile_eq_self_iff]
  intro i hi
  rw [Bool.not_eq_true']
  exact Bool.eq_false_iff.mpr (List.find?_eq_none.mp h i hi)

/-- One more input after the ending is not live, and not the ending. -/
theorem concat_of_ended {inputs : List Input} {first : Input} (h : ending inputs = some first)
    (i : Input) : ending (inputs ++ [i]) = some first ∧ live (inputs ++ [i]) = live inputs := by
  constructor
  · rw [ending, List.find?_append, ← ending, h, Option.some_or]
  · -- If all inputs were live, the ending would be one that is not terminal.
    have hshort : ¬ (live inputs).length = inputs.length := by
      intro hlength
      have hself : live inputs = inputs := (List.takeWhile_prefix _).eq_of_length hlength
      have hlive : first ∈ live inputs := hself.symm ▸ List.mem_of_find?_eq_some h
      have hno : (!first.isTerminal) = true :=
        List.mem_takeWhile_imp (p := fun i : Input => !i.isTerminal) hlive
      rw [List.find?_some h] at hno
      cases hno
    rw [live, List.takeWhile_append, ← live, if_neg hshort]

/-- One more input while nothing terminal has come is live or the ending. -/
theorem concat_of_not_ended {inputs : List Input} (h : ending inputs = none) (i : Input) :
    ending (inputs ++ [i]) = ending [i] ∧ live (inputs ++ [i]) = inputs ++ live [i] := by
  constructor
  · rw [ending, List.find?_append, ← ending, h, Option.none_or]
    rfl
  · have hself := live_eq_self h
    rw [live] at hself ⊢
    rw [List.takeWhile_append, hself, if_pos rfl]
    rfl

/-- Where some inputs have brought a channel. -/
structure Reached (name : String) (inputs : List Input) (s : Subscription) : Prop where
  channelName : s.channel.name = name
  accepting : s.channel.accepting = (ending inputs).isNone
  taken : s.taken = (live inputs).filterMap Input.event?
  health : s.channel.health = healthAfter (ending inputs)
  notices : s.notices.filter isBreakNotice = breakNotices name (ending inputs)

theorem reached_new (name : String) : Reached name [] (Subscription.new name) :=
  ⟨rfl, rfl, rfl, rfl, rfl⟩

/-- An input keeps the invariant. It is the ending or live while nothing terminal has come, and
changes nothing afterwards. -/
theorem reached_step {name : String} {inputs : List Input} {s : Subscription}
    (h : Reached name inputs s) (i : Input) : Reached name (inputs ++ [i]) (s.step i) := by
  cases hended : ending inputs with
  | none =>
      obtain ⟨hending, hlive⟩ := concat_of_not_ended hended i
      have haccepting : s.channel.accepting = true := by rw [h.accepting, hended]; rfl
      obtain ⟨hname, haccepting', htaken, hhealth, hnotices⟩ := accepting_step haccepting i
      exact {
        channelName := hname.trans h.channelName
        accepting := by rw [haccepting', hending]
        taken := by rw [htaken, h.taken, live_eq_self hended, hlive, List.filterMap_append]
        health := by rw [hhealth, hending]
        notices := by rw [hnotices, h.notices, h.channelName, hended, hending]; rfl }
  | some first =>
      obtain ⟨hending, hlive⟩ := concat_of_ended hended i
      have hquiet : s.channel.accepting = false := by rw [h.accepting, hended]; rfl
      obtain ⟨hname, haccepting, htaken, hhealth, hnotices⟩ := quiet_step hquiet i
      exact {
        channelName := hname.trans h.channelName
        accepting := by rw [haccepting, hending]; rfl
        taken := by rw [htaken, h.taken, hlive]
        health := by rw [hhealth, h.health, hended, hending]
        notices := by rw [hnotices, h.notices, hended, hending] }

/-- Any inputs bring a new channel where the invariant says, by induction on them from the last
one. -/
theorem reached_run (name : String) (inputs : List Input) :
    Reached name inputs ((Subscription.new name).run inputs) := by
  induction inputs using List.reverseRecOn with
  | nil => exact reached_new name
  | append_singleton inputs i ih =>
      rw [Subscription.run, List.foldl_append]
      exact reached_step ih i

/-! ### The main fact -/

/-- What a channel has taken, is and has said after any inputs. Its drained batches, followed by
what still waits, are the events of the live deliveries, each once and in order. The first
terminal input alone settles its state, and with it whether it has said that it is broken, which
it does once. A drain at any time hands out all that waits as one batch, so that the batches hold
all events and nothing waits. A delivery that makes no event changes neither the buffer nor the
state. After the first terminal input, nothing is taken, the state stays and nothing is
reported. -/
theorem subscription_delivers (name : String) (inputs : List Input) :
    let s := (Subscription.new name).run inputs
    s.batches.flatten ++ s.channel.buffer.events = (live inputs).filterMap Input.event? ∧
      s.channel.health = healthAfter (ending inputs) ∧
      s.notices.filter isBreakNotice = breakNotices name (ending inputs) ∧
      (let drained := s.step .drain
       drained.batches = s.batches ++ [s.channel.buffer.events] ∧
         drained.channel.buffer.events = [] ∧
         drained.batches.flatten = (live inputs).filterMap Input.event?) ∧
      (∀ now captureTime rendered failure,
        Channel.eventOf captureTime rendered = .error failure →
        let after := s.step (.deliver now captureTime rendered)
        after.channel.buffer = s.channel.buffer ∧ after.channel.health = s.channel.health ∧
          after.channel.accepting = s.channel.accepting ∧ after.batches = s.batches) ∧
      ((ending inputs).isSome = true → ∀ later,
        (s.run later).taken = s.taken ∧ (s.run later).channel.health = s.channel.health ∧
          (s.run later).notices = s.notices) := by
  intro s
  have hreached : Reached name inputs s := reached_run name inputs
  refine ⟨hreached.taken, hreached.health, hreached.notices, ?_, ?_, ?_⟩
  · intro drained
    have hdrained : drained = { s with channel := { s.channel with buffer := Buffer.empty },
                                       batches := s.batches ++ [s.channel.buffer.events] } :=
      step_drain s
    rw [hdrained]
    refine ⟨rfl, rfl, ?_⟩
    rw [List.flatten_append, List.flatten_singleton]
    exact hreached.taken
  · intro now captureTime rendered failure hevent after
    obtain ⟨throttle, notices, hstep, -⟩ := step_deliver_of_error s now hevent
    have hafter : after = { s with channel := { s.channel with throttle := throttle },
                                   notices := s.notices ++ notices } := hstep
    rw [hafter]
    exact ⟨rfl, rfl, rfl, rfl⟩
  · intro hended later
    have hquiet : s.channel.accepting = false := by
      rw [hreached.accepting, ← Option.not_isSome, hended]
      rfl
    exact quiet_run hquiet later

/-- A channel that is closed while an event waits. -/
def closedFirst : List Input :=
  [.deliver 0 7 (.ok "<Event/>"), .close, .breakDown 15001, .deliver 1 8 (.ok "<Event/>")]

/-- It does not break any more, keeps the event until it is drained, and takes no other. -/
theorem subscription_delivers_closedFirst :
    let s := (Subscription.new "Security").run closedFirst
    s.taken.map (·.captureTime) = [7] ∧ s.channel.health = .active ∧
      (s.run [.breakDown 5, .drain]).taken = s.taken := by
  intro s
  obtain ⟨htaken, hhealth, -, -, -, hquiet⟩ := subscription_delivers "Security" closedFirst
  refine ⟨?_, hhealth, (hquiet rfl _).1⟩
  rw [Subscription.taken, htaken]
  decide

end AuditTables.Proofs.Source
