import AmqpAsio.Transceiver.Moves

/-!
# What the exit callback reports

`m_ec` and `m_error` are to name what went wrong first in a run. A dozen lambdas write them. Those
of a failed unbinding, removal or close fill what is not set yet, looking at the two fields one by
one, so that a message joins the code of another failure whose message was empty. The others write
both fields whatever is there, so that a channel that does not open again hides why it had to. As
long as neither happens, and no lambda of another run interferes, the report is that of the first
step that failed.
-/

set_option autoImplicit false
set_option relaxedAutoImplicit false

namespace AmqpAsio

namespace Transceiver

variable {t t' u : Transceiver} {cb : Callback} {s : State}

/-! ### What the lambdas write -/

/-- `m_ec` and `m_error`. -/
def cause (t : Transceiver) : ExitCode × String := (t.ec, t.error)

/-- The failure of a step that AMQP-CPP reports to a lambda: the code that stands for the step, and
the message. A consumer that fails in `eReady` has been registered. That a queue is not there yet is
not a failure. -/
def Callback.failure (state : State) : Callback → Option (ExitCode × String)
  | .createChannelError message | .recreateChannelError message
  | .unbindQueueChannelError message | .removeQueueChannelError message =>
    some (.eCreateChannelError, message)
  | .createExchangeError message => some (.eCreateExchangeError, message)
  | .createQueueError message => some (.eCreateQueueError, message)
  | .bindQueueError message => some (.eBindQueueError, message)
  | .createConsumerError message =>
    some (if state = .eReady then .eChannelAbruptlyClosedError else .eCreateConsumerError, message)
  | .readyError message => some (.eChannelAbruptlyClosedError, message)
  | .shutdownError message => some (.eConsumerCancelError, message)
  | .unbindQueueError message => some (.eUnbindQueueError, message)
  | .removeQueueError message => some (.eRemoveQueueError, message)
  | .closeChannelError message => some (.eCloseChannelError, message)
  | _ => none

/-- The lambda only fills what is not set yet. -/
def Callback.fills : Callback → Bool
  | .unbindQueueError _ | .removeQueueError _ | .closeChannelError _ => true
  | _ => false

/-- What is reported after another failure has filled what was not set. -/
def filled (before failure : ExitCode × String) : ExitCode × String :=
  (if before.1 = .eNoError then failure.1 else before.1,
    if before.2 = "" then failure.2 else before.2)

theorem code_of_failure {state : State} {f : ExitCode × String}
    (hfailure : cb.failure state = some f) : f.1 ≠ .eNoError := by
  cases cb <;> simp only [Callback.failure, Option.some.injEq, reduceCtorEq] at hfailure
  all_goals
    subst hfailure
    try split
    all_goals simp

@[simp] theorem cause_setOnError (t : Transceiver) (handler : Option ErrorHandler) :
    (t.setOnError handler).cause = t.cause := rfl

/-- A lambda that calls `StateMachine()` has written the failure it stands for, if any. -/
theorem cause_of_reaction (hreaction : t.reaction cb = some (u, s)) :
    u.cause = match cb.failure t.state with
      | none => t.cause
      | some f => if cb.fills then filled t.cause f else f := by
  cases cb <;> simp only [reaction, Option.ite_none_right_eq_some, Option.some.injEq,
    Prod.mk.injEq, reduceCtorEq] at hreaction
  case createConsumerError message =>
    split at hreaction
    · next hstate =>
      obtain ⟨rfl, -⟩ := Prod.mk.inj (Option.some.inj hreaction)
      simp [Callback.failure, Callback.fills, hstate, cause, setError]
    · obtain ⟨hstate, hreaction⟩ := Option.ite_none_right_eq_some.mp hreaction
      obtain ⟨rfl, -⟩ := Prod.mk.inj (Option.some.inj hreaction)
      simp [Callback.failure, Callback.fills, hstate, cause, setError]
  all_goals
    first
    | obtain ⟨rfl, -⟩ := hreaction
      rfl
    | obtain ⟨-, rfl, -⟩ := hreaction
      rfl

/-- A lambda that does not call `StateMachine()` writes no error. -/
theorem Aside.cause (h : Aside t cb u) : u.cause = t.cause ∧ u.connection = t.connection := by
  cases h with
  | idle | issue | message | bounce => exact ⟨rfl, rfl⟩

/-- A step that does not call `StateMachine()` writes no error. -/
theorem Still.cause {e : Event} (h : Still t e t') :
    t'.cause = t.cause ∧ t'.connection = t.connection := by
  cases h with
  | idle | install | publish => exact ⟨rfl, rfl⟩
  | callback n cb hreaction haside => exact haside.cause

/-- `StateMachine()` itself writes an error only when there is no connection to open a channel
on. -/
@[simp] theorem cause_arrive (t : Transceiver) : t.arrive.cause = t.cause := by
  cases hstate : t.state <;> simp only [arrive, hstate] <;>
    first
    | rfl
    | (unfold atReady; split <;> rfl)

theorem cause_goto (hconnection : s = .eCreateChannel → t.connection.isSome) :
    (t.goto s).cause = t.cause := by
  have hnone : ¬ (s = .eCreateChannel ∧ t.connection = none) := by
    rintro ⟨hs, hnone⟩
    simp [hnone] at hconnection
    exact hconnection hs
  rw [goto_eq, cause_arrive, passingError, if_neg hnone]
  rfl

/-- At the end an exit callback is called with `m_ec`. -/
theorem exit_of_goto (hend : (t.goto s).state = .eEnd) (hexit : t.onExit = true) :
    (t.goto s).log.getLast? = some (.exit (t.goto s).runs (t.goto s).cause.1) := by
  have hstate : ((t.passingError s).passing (t.path s)).state = .eEnd := by
    rw [state_goto] at hend
    simp [passing, getLast?_path, hend]
  have hexit' : ((t.passingError s).passing (t.path s)).onExit = true := by
    rw [← hexit]
    unfold passing passingError
    split <;> rfl
  rw [goto_eq]
  simp [arrive, hstate, atEnd, hexit', cause]

/-! ### The first failure of a run -/

/-- A transceiver with, for its last run, the number of channels made before it, the first failure
of one of its steps, whether `drop()` was called in it, and `m_ec` and `m_error` when it came to its
end for the first time, which is when `m_onExit` is first called. -/
structure Diagnosis where
  transceiver : Transceiver
  base : ℕ
  first : Option (ExitCode × String)
  dropped : Bool
  report : Option (ExitCode × String)

namespace Diagnosis

/-- What is reported by a transceiver that is at its end. -/
def reported (t : Transceiver) : Option (ExitCode × String) :=
  if t.state = .eEnd then some t.cause else none

/-- The failure of a step of the last run that an event reports. The channels of the run are those
made in it. -/
def failure (x : Diagnosis) : Event → Option (ExitCode × String)
  | .callback channel cb =>
    if x.base ≤ channel then cb.failure x.transceiver.state else none
  | _ => none

/-- A run begins. Without a connection its first step, to open a channel, has failed. -/
def begun (x : Diagnosis) (connection : Option ConnectionId) (t : Transceiver) : Diagnosis where
  transceiver := t
  base := x.transceiver.channels.length
  first := if connection.isNone then some (.eCreateChannelError, "no AMQP connection") else none
  dropped := false
  report := reported t

/-- A run goes on, or is over. -/
def continued (x : Diagnosis) (e : Event) (t : Transceiver) : Diagnosis where
  transceiver := t
  base := x.base
  first := if x.report.isNone then x.first <|> x.failure e else x.first
  dropped := x.dropped || x.report.isNone && decide (e = .drop)
  report := x.report <|> reported t

/-- One event. -/
def step (x : Diagnosis) (e : Event) : Option Diagnosis :=
  (x.transceiver.step e).map fun t ↦
    match e with
    | .start connection =>
      if x.transceiver.state = .eEnd then x.begun connection t else x.continued e t
    | _ => x.continued e t

/-- The runs of a transceiver from its construction on, as if a run without failures were over. -/
def machine : Machine Diagnosis Event where
  init x := Transceiver.machine.init x.transceiver ∧ x.base = 0 ∧ x.first = none ∧
    x.dropped = false ∧ x.report = some (.eNoError, "")
  step := step

/-- The run reports its first failure, or that there was none. -/
def NamesFirst (x : Diagnosis) : Prop :=
  ∀ r, x.report = some r → x.dropped = false → r = x.first.getD (.eNoError, "")

/-- As long as no step of the run has failed, a lambda that reports a failure is one of the run, and
its test of `m_state` lets it through. Afterwards it only fills what is not set, and the first
failure had a message, or it says the same. -/
def Traced (x : Diagnosis) : Event → Prop
  | .callback channel cb => x.report = none →
    ∀ f, cb.failure x.transceiver.state = some f →
      if (x.transceiver.reaction cb).isSome then
        x.base ≤ channel ∧ x.first = none ∨
          ∃ first, x.first = some first ∧ if cb.fills then first.2 = "" → f.2 = "" else f = first
      else x.base ≤ channel → x.first ≠ none
  | _ => True

/-- In a run that is not over, `m_ec` and `m_error` are the first failure, and there is a
connection. -/
structure Diagnosed (x : Diagnosis) : Prop where
  names : x.NamesFirst
  code : ∀ f, x.first = some f → f.1 ≠ .eNoError
  running : x.report = none → x.transceiver.state ≠ .eEnd ∧ x.dropped = false ∧
    x.transceiver.connection.isSome ∧ x.transceiver.cause = x.first.getD (.eNoError, "")

variable {x x' : Diagnosis} {e : Event} {t' u : Transceiver} {s : State}

/-- A run that goes on is diagnosed if the transceiver still shows the first failure. -/
theorem Diagnosed.continued (h : x.Diagnosed) (hrunning : x.report = none)
    (hcode : ∀ f, x.failure e = some f → f.1 ≠ .eNoError)
    (hcause : e ≠ .drop → t'.cause = (x.first <|> x.failure e).getD (.eNoError, ""))
    (hstate : t'.state ≠ .eEnd → e ≠ .drop ∧ t'.connection.isSome) :
    (x.continued e t').Diagnosed := by
  obtain ⟨-, hdropped, -, -⟩ := h.running hrunning
  have hfirst : (x.continued e t').first = (x.first <|> x.failure e) := by
    simp [Diagnosis.continued, hrunning]
  have hreport : (x.continued e t').report = reported t' := by
    simp [Diagnosis.continued, hrunning]
  have hdropped' : (x.continued e t').dropped = decide (e = .drop) := by
    simp [Diagnosis.continued, hrunning, hdropped]
  refine ⟨fun r hr hnot ↦ ?_, fun f hf ↦ ?_, fun hnone ↦ ?_⟩
  · rw [hreport, reported, Option.ite_none_right_eq_some] at hr
    rw [hdropped', decide_eq_false_iff_not] at hnot
    rw [hfirst, ← hcause hnot]
    exact (Option.some.inj hr.2).symm
  · rw [hfirst] at hf
    cases hx : x.first with
    | none =>
      rw [hx] at hf
      exact hcode f hf
    | some first =>
      rw [hx] at hf
      exact Option.some.inj hf ▸ h.code first hx
  · have hstate' : t'.state ≠ .eEnd := by
      intro hend
      simp [hreport, reported, hend] at hnone
    obtain ⟨hdrop, hconnection⟩ := hstate hstate'
    exact ⟨hstate', by simp [hdropped', hdrop], hconnection, hfirst ▸ hcause hdrop⟩

/-- After the end of a run nothing changes what it reported. -/
theorem Diagnosed.over (h : x.Diagnosed) (hover : x.report ≠ none) :
    (x.continued e t').Diagnosed := by
  obtain ⟨r, hr⟩ := Option.ne_none_iff_exists'.mp hover
  refine ⟨fun r' hr' hdropped ↦ ?_, fun f hf ↦ ?_, fun hnone ↦ ?_⟩
  · simp only [Diagnosis.continued, hr, Option.isNone_some, Bool.false_and, Bool.or_false]
      at hr' hdropped
    have hnames := h.names r hr hdropped
    obtain rfl : r = r' := Option.some.inj hr'
    simpa [Diagnosis.continued, hr] using hnames
  · refine h.code f ?_
    simpa [Diagnosis.continued, hr] using hf
  · simp [Diagnosis.continued, hr] at hnone

/-- A run that begins has either opened a channel, or reports that there is no connection. -/
theorem diagnosed_begun {connection : Option ConnectionId}
    (hend : x.transceiver.state = .eEnd)
    (hstep : x.transceiver.step (.start connection) = some t') :
    (x.begun connection t').Diagnosed := by
  have hmove : x.transceiver.move (.start connection) = some (_, .eCreateChannel) := if_pos hend
  obtain rfl := step_of_move hstep hmove
  cases connection with
  | none =>
    refine ⟨fun r hr _ ↦ ?_, fun f hf ↦ ?_, fun hnone ↦ ?_⟩
    · obtain rfl := Option.some.inj hr
      rfl
    · obtain rfl := Option.some.inj hf
      simp
    · cases hnone
  | some connection =>
    refine ⟨fun r hr ↦ ?_, fun f hf ↦ ?_, fun _ ↦ ⟨?_, rfl, rfl, rfl⟩⟩
    · cases hr
    · cases hf
    · exact (nofun : State.eCreateChannel ≠ .eEnd)

/-- A lambda that is traced leaves the first failure in `m_ec` and `m_error`. -/
theorem cause_of_traced {channel : ℕ} {cb : Callback} (h : x.Diagnosed)
    (htraced : x.Traced (.callback channel cb)) (hrunning : x.report = none)
    (hreaction : (x.transceiver.delivering channel cb).reaction cb = some (u, s)) :
    u.cause = (x.first <|> x.failure (.callback channel cb)).getD (.eNoError, "") := by
  obtain ⟨-, -, -, hcause⟩ := h.running hrunning
  have hacts : (x.transceiver.reaction cb).isSome := by
    rw [Option.isSome_iff_ne_none]
    intro hnone
    simp [reaction_delivering_eq_none.mpr hnone] at hreaction
  have hwritten := cause_of_reaction hreaction
  have hsame : (x.transceiver.delivering channel cb).cause = x.transceiver.cause := rfl
  have hstate : (x.transceiver.delivering channel cb).state = x.transceiver.state := rfl
  rw [hsame, hstate] at hwritten
  cases hf : cb.failure x.transceiver.state with
  | none =>
    rw [hf] at hwritten
    simp [hwritten, hcause, Diagnosis.failure, hf]
  | some f =>
    rw [hf] at hwritten
    have hknown := htraced hrunning f hf
    rw [if_pos hacts] at hknown
    rcases hknown with ⟨hown, hfirst⟩ | ⟨first, hfirst, hlater⟩
    · have hnothing : x.transceiver.cause = (.eNoError, "") := by simpa [hfirst] using hcause
      simp [hwritten, hnothing, filled, Diagnosis.failure, hown, hfirst, hf]
    · have hshown : x.transceiver.cause = first := by simpa [hfirst] using hcause
      have hcode := h.code first hfirst
      rw [hwritten, hshown, hfirst]
      change (if cb.fills then filled first f else f) = first
      split
      · next hfills =>
        rw [if_pos hfills] at hlater
        by_cases hempty : first.2 = ""
        · simp [filled, hcode, hempty, hlater hempty, Prod.ext_iff]
        · simp [filled, hcode, hempty]
      · next hwrites =>
        rw [if_neg hwrites] at hlater
        exact hlater

/-- What an event reports is a failure. -/
theorem code_of_reported {f : ExitCode × String} (hf : x.failure e = some f) :
    f.1 ≠ .eNoError := by
  cases e with
  | callback channel cb => exact code_of_failure (Option.ite_none_right_eq_some.mp hf).2
  | _ => cases hf

/-- A step of a run that does not call `StateMachine()`. -/
theorem Diagnosed.stay (h : x.Diagnosed) (htraced : x.Traced e) (hrunning : x.report = none)
    (hmove : x.transceiver.move e = none) (hstep : x.transceiver.step e = some t') :
    (x.continued e t').Diagnosed := by
  obtain ⟨hstate, -, hconnection, hcause⟩ := h.running hrunning
  have hdrop : e ≠ .drop := by
    rintro rfl
    simp [move, hstate] at hmove
  have hsame := (still_of_no_move hstep hmove).cause
  refine h.continued hrunning (fun f ↦ code_of_reported) (fun _ ↦ ?_)
    fun _ ↦ ⟨hdrop, hsame.2 ▸ hconnection⟩
  rw [hsame.1, hcause]
  cases hfirst : x.first with
  | some first => rfl
  | none =>
    cases hf : x.failure e with
    | none => rfl
    | some f =>
      cases e with
      | callback channel cb =>
        obtain ⟨hown, hf⟩ := Option.ite_none_right_eq_some.mp hf
        have hturned := htraced hrunning f hf
        rw [reaction_delivering_eq_none.mp hmove] at hturned
        exact absurd hfirst (hturned hown)
      | _ => cases hf

/-- A step of a run that calls `StateMachine()`. -/
theorem Diagnosed.move (h : x.Diagnosed) (htraced : x.Traced e) (hrunning : x.report = none)
    (hmove : x.transceiver.move e = some (u, s)) : (x.continued e (u.goto s)).Diagnosed := by
  obtain ⟨hstate, -, hconnection, hcause⟩ := h.running hrunning
  have hcode (f : ExitCode × String) : x.failure e = some f → f.1 ≠ .eNoError := code_of_reported
  have hlands (hu : u.connection = x.transceiver.connection) (hdrop : e ≠ .drop)
      (hgoes : (u.goto s).state ≠ .eEnd) : e ≠ .drop ∧ (u.goto s).connection.isSome := by
    rw [connection_goto (by simpa using hgoes), hu]
    exact ⟨hdrop, hconnection⟩
  cases e with
  | install | send => cases hmove
  | start connection => simp [Transceiver.move, hstate] at hmove
  | stop =>
    obtain ⟨-, hmove⟩ := Option.ite_none_right_eq_some.mp hmove
    obtain ⟨rfl, rfl⟩ := Prod.mk.inj (Option.some.inj hmove)
    refine h.continued hrunning hcode (fun _ ↦ ?_) (hlands rfl (by simp))
    rw [cause_goto fun _ ↦ hconnection, hcause]
    cases x.first <;> rfl
  | drop =>
    obtain ⟨-, hmove⟩ := Option.ite_none_left_eq_some.mp hmove
    obtain ⟨rfl, rfl⟩ := Prod.mk.inj (Option.some.inj hmove)
    refine h.continued hrunning hcode (fun hdrop ↦ absurd rfl hdrop) fun hgoes ↦ ?_
    exact absurd (state_goto _ _) hgoes
  | callback channel cb =>
    have hu : u.connection = x.transceiver.connection := (reaction_prepared hmove).connection
    refine h.continued hrunning hcode (fun _ ↦ ?_) (hlands hu (by simp))
    rw [cause_goto fun _ ↦ hu ▸ hconnection]
    exact cause_of_traced h htraced hrunning hmove

theorem Diagnosed.step (h : x.Diagnosed) (htraced : x.Traced e) (hstep : x.step e = some x') :
    x'.Diagnosed := by
  obtain ⟨t', ht', rfl⟩ := Option.map_eq_some_iff.mp hstep
  have hcontinued : (x.continued e t').Diagnosed := by
    by_cases hrunning : x.report = none
    · cases hmove : x.transceiver.move e with
      | none => exact h.stay htraced hrunning hmove ht'
      | some move =>
        obtain rfl := step_of_move ht' hmove
        exact h.move htraced hrunning hmove
    · exact h.over hrunning
  cases e with
  | start connection =>
    simp only
    split
    · next hend => exact diagnosed_begun hend ht'
    · exact hcontinued
  | _ => exact hcontinued

/-- While a transceiver is running, an event continues the run. -/
theorem step_of_running (hrunning : x.transceiver.state ≠ .eEnd) (hstep : x.step e = some x') :
    ∃ t', x.transceiver.step e = some t' ∧ x' = x.continued e t' := by
  obtain ⟨t', ht', rfl⟩ := Option.map_eq_some_iff.mp hstep
  refine ⟨t', ht', ?_⟩
  cases e with
  | start connection => exact if_neg hrunning
  | _ => rfl

/-- What a run reports is what its exit callback is first called with. -/
theorem exit_of_report {r : ExitCode × String} (hrunning : x.transceiver.state ≠ .eEnd)
    (hnone : x.report = none) (hexit : x.transceiver.onExit = true) (hstep : x.step e = some x')
    (hreport : x'.report = some r) :
    x'.transceiver.log.getLast? = some (.exit x'.transceiver.runs r.1) ∧
      x'.transceiver.error = r.2 := by
  obtain ⟨t', ht', rfl⟩ := step_of_running hrunning hstep
  have hreported : reported t' = some r := by simpa [Diagnosis.continued, hnone] using hreport
  obtain ⟨hend, hcause⟩ := Option.ite_none_right_eq_some.mp hreported
  obtain rfl := Option.some.inj hcause
  cases hmove : x.transceiver.move e with
  | none => exact absurd ((step_of_no_move ht' hmove).state.symm.trans hend) hrunning
  | some move =>
    obtain rfl := step_of_move ht' hmove
    have hexit' : move.1.onExit = true := (move_spec hmove).2.2.1.trans hexit
    exact ⟨exit_of_goto hend hexit', rfl⟩

/-- As long as the failures are traced, a run that was not dropped reports the first one. -/
theorem namesFirst_of_traced (h : machine.ReachedBy Traced x) : x.NamesFirst := by
  have hdiagnosed : x.Diagnosed := by
    refine h.invariant (fun x hx ↦ ?_) fun x e x' hx htraced hstep ↦ hx.step htraced hstep
    obtain ⟨-, -, hfirst, -, hreport⟩ := hx
    refine ⟨fun r hr _ ↦ ?_, by simp [hfirst], by simp [hreport]⟩
    simpa [hreport, hfirst, eq_comm] using hr
  exact hdiagnosed.names

/-- A transceiver that has not been started. -/
def unstarted (listener : Bool) : Diagnosis where
  transceiver := Transceiver.new "exchange" "" "route" listener
  base := 0
  first := none
  dropped := false
  report := some (.eNoError, "")

/-- A sender cannot declare its exchange, and then cannot close its channel either. -/
def failing (message : String) : List Event :=
  [.start (some 0), .callback 0 .createChannelReady, .callback 0 (.createExchangeError message),
    .callback 0 (.closeChannelError "gone")]

/-- A failure with a message is reported though another one follows. -/
theorem namesFirst_failing :
    ∃ x, machine.run (unstarted false) (failing "denied") = some x ∧
      x.report = some (.eCreateExchangeError, "denied") ∧ x.NamesFirst := by
  refine ⟨_, rfl, by decide, namesFirst_of_traced ?_⟩
  refine ⟨unstarted false, failing "denied", ⟨⟨_, _, _, _, rfl⟩, rfl, rfl, rfl, rfl⟩, rfl, ?_⟩
  have htraced {x : Diagnosis} {channel : ℕ} {cb : Callback}
      (h : ∀ f, cb.failure x.transceiver.state = some f → (x.transceiver.reaction cb).isSome ∧
        (x.base ≤ channel ∧ x.first = none ∨ cb.fills ∧ ∃ first, x.first = some first ∧
          first.2 ≠ "")) : x.Traced (.callback channel cb) := by
    intro _ f hf
    obtain ⟨hacts, hfirst | ⟨hfills, first, hfirst, hmessage⟩⟩ := h f hf
    · exact (if_pos hacts).mpr (Or.inl hfirst)
    · refine (if_pos hacts).mpr (Or.inr ⟨first, hfirst, ?_⟩)
      exact (if_pos hfills).mpr fun hempty ↦ absurd hempty hmessage
  refine Machine.meets_cons trivial rfl ?_
  refine Machine.meets_cons (htraced fun f hf ↦ by cases hf) rfl ?_
  refine Machine.meets_cons (htraced fun f hf ↦ ⟨rfl, Or.inl ⟨Nat.zero_le 0, rfl⟩⟩) rfl ?_
  refine Machine.meets_cons (htraced fun f hf ↦ ⟨rfl, Or.inr ⟨rfl, _, rfl, ?_⟩⟩) rfl trivial
  simp

/-- A listener cannot bind its queue, and the channel to remove it on does not open. -/
def abandoned : List Event :=
  [.start (some 0), .callback 0 .createChannelReady, .callback 0 .createExchangeSuccess,
    .callback 0 (.createQueueSuccess "queue"), .callback 0 (.bindQueueError "denied"),
    .callback 1 (.removeQueueChannelError "gone")]

/-- A failure without a message is reported with the message of the next, and the failure of a
binding is reported as one of a channel. -/
theorem not_namesFirst_failing :
    (∃ x, machine.run (unstarted false) (failing "") = some x ∧
      x.first = some (.eCreateExchangeError, "") ∧
      x.report = some (.eCreateExchangeError, "gone") ∧ ¬ x.NamesFirst) ∧
    ∃ x, machine.run (unstarted true) abandoned = some x ∧
      x.first = some (.eBindQueueError, "denied") ∧
      x.report = some (.eCreateChannelError, "gone") ∧ ¬ x.NamesFirst := by
  refine ⟨⟨_, rfl, by decide, by decide, fun h ↦ ?_⟩, ⟨_, rfl, by decide, by decide, fun h ↦ ?_⟩⟩
  · exact absurd (h _ rfl rfl) (by decide)
  · exact absurd (h _ rfl rfl) (by decide)

end Diagnosis

end Transceiver

end AmqpAsio
