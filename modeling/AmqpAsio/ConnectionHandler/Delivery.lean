import AmqpAsio.Inevitable
import AmqpAsio.ConnectionHandler.Output

/-!
# The bytes a handler delivers

`onData` returns at once, and what it has queued goes out with the completions of the writes. While
the connection is up there is always a write outstanding as long as the queue is not empty
(`Pumping`), and every byte that the socket accepts and every buffer that it empties brings the
payloads queued so far nearer to their end, however much is queued behind them in the meantime
(`Owing`).
-/

set_option autoImplicit false
set_option relaxedAutoImplicit false

namespace AmqpAsio

namespace ConnectionHandler

variable {h h' : ConnectionHandler}

theorem connected_of_ready (hready : h.ready = true) : h.connected = true := by
  simp only [ready] at hready
  simp [connected, hready]

theorem ready_eq_false_of_state (hstate : h.state = .eNotConnected ∨ h.state = .eShutdown) :
    h.ready = false := by
  rcases hstate with hstate | hstate <;> simp [ready, hstate]

/-- A connection comes up by being established. -/
theorem Transition.ready {next : Continuation} (htransition : Transition h h' next)
    (hready : h'.ready = true) : h.ready = true ∨ h.connected = false := by
  cases next with
  | done =>
    rcases htransition with hsame | ⟨⟨hs, -⟩ | ⟨hs, -⟩ | ⟨hs, -⟩, -⟩
    · left
      simpa [ConnectionHandler.ready, hsame] using hready
    · exact Or.inr (connected_eq_false_of_idle (Or.inl hs))
    · exact Or.inr (connected_eq_false_of_idle (Or.inr hs))
    · exact Or.inl (by simp [ConnectionHandler.ready, hs])
  | connectedCb => exact Or.inr (connected_eq_false_of_idle (Or.inr htransition.1))
  | shutdownLoop => simp [ready_eq_false_of_state (Or.inr htransition.2)] at hready
  | shutdownCb message => simp [ready_eq_false_of_state (Or.inl htransition.2.1)] at hready
  | parse =>
    left
    simpa [ConnectionHandler.ready, htransition.2] using hready

namespace Execution

variable {x x' : Execution}

theorem ready_perform (message : String) {r : ConnectionHandler × Continuation}
    (hready : (x.perform message r).handler.ready = true) :
    (x.perform message r).handler = r.1 := by
  obtain ⟨handler, next⟩ := r
  rcases handler_goOn { x with
    handler := handler
    log := x.log ++ if Begins x.handler handler then [Observation.began x.starts message] else [] }
    next with hsame | ⟨-, -, hend⟩
  · exact hsame
  · have hdown : (x.perform message (handler, next)).handler.state = .eNotConnected :=
      congrArg ConnectionHandler.state hend
    simp [ready_eq_false_of_state (Or.inl hdown)] at hready

theorem ready_of_step {e : Event} (hstep : x.step e = some x')
    (hready : x'.handler.ready = true) :
    x.handler.ready = true ∨ x.handler.connected = false := by
  have hmethod
      (hcalls : (if x.pausing then (x.handler.method e).map (x.perform e.message) else none) =
        some x') : x.handler.ready = true ∨ x.handler.connected = false := by
    obtain ⟨-, hcalls⟩ := Option.ite_none_right_eq_some.mp hcalls
    obtain ⟨r, hr, rfl⟩ := Option.map_eq_some_iff.mp hcalls
    exact (transition_method hr).ready (ready_perform _ hready ▸ hready)
  cases e with
  | resume =>
    simp only [Execution.step] at hstep
    split at hstep
    · obtain rfl := Option.some.inj hstep
      exact Or.inl hready
    · obtain rfl := Option.some.inj hstep
      exact Or.inl hready
    · obtain ⟨-, hstep⟩ := Option.ite_none_left_eq_some.mp hstep
      obtain rfl := Option.some.inj hstep
      cases hready
    · cases hstep
    · cases hstep
  | parsed parsed expected =>
    simp only [Execution.step] at hstep
    split at hstep
    · obtain ⟨r, hr, rfl⟩ := Option.map_eq_some_iff.mp hstep
      exact (transition_onParsed hr).ready (ready_perform _ hready ▸ hready)
    · cases hstep
  | start connectedCb =>
    obtain ⟨-, hstep⟩ := Option.ite_none_right_eq_some.mp hstep
    split at hstep
    · next hstate => exact Or.inr (by simp [connected, hstate])
    · exact Or.inl (Option.some.inj hstep ▸ hready)
  | _ => exact hmethod hstep

/-- While the connection is up, something is being written as long as there is something to
write. -/
def Pumping (x : Execution) : Prop :=
  x.handler.ready = true → x.handler.writeReq = false → x.handler.outBufs = []

/-- A write that has failed does not leave the connection up. -/
theorem not_ready_of_failed {message : String} {bytes : ℕ}
    (hstep : x.step (.wrote (some message) bytes) = some x') : x'.handler.ready = false := by
  by_contra hready
  have hready' : x'.handler.ready = true := by simpa using hready
  obtain ⟨-, hcalls⟩ := Option.ite_none_right_eq_some.mp hstep
  obtain ⟨r, hr, rfl⟩ := Option.map_eq_some_iff.mp hcalls
  have hstate := (ready_perform _ hready') ▸ hready'
  obtain ⟨-, hr⟩ := Option.ite_none_left_eq_some.mp hr
  simp only [onWrite] at hr
  split at hr
  · next hconnected =>
    obtain rfl := Option.some.inj hr
    simp_all [ConnectionHandler.ready, connected]
  · split at hr
    · obtain rfl := Option.some.inj hr
      cases hstate
    · next hshutdown =>
      obtain rfl := Option.some.inj hr
      simp [ConnectionHandler.ready, not_not.mp hshutdown] at hstate

/-- `onData` on a connection that stays up. -/
theorem outBufs_onData {size : ℕ} (hup : x.handler.connected = true)
    (hstep : x.step (.onData size) = some x') (hready : x'.handler.ready = true) :
    x'.handler.outBufs = x.handler.outBufs ++ [size] ∧ x'.handler.writeReq = true := by
  obtain ⟨-, hcalls⟩ := Option.ite_none_right_eq_some.mp hstep
  obtain ⟨r, hr, rfl⟩ := Option.map_eq_some_iff.mp hcalls
  obtain rfl := Option.some.inj hr
  rw [ready_perform _ hready]
  have houtput := output_onData hup size
  simp only [ConnectionHandler.output, Prod.mk.injEq] at houtput
  exact ⟨houtput.1, houtput.2.1⟩

/-- A write that has succeeded, on a connection that stays up. -/
theorem outBufs_wrote {bytes : ℕ} (hup : x.handler.connected = true)
    (hstep : x.step (.wrote none bytes) = some x') (hready : x'.handler.ready = true) :
    ∃ front rest, x.handler.outBufs = front :: rest ∧
      (front - bytes = 0 ∧ x'.handler.outBufs = rest ∧ x'.handler.writeReq = !rest.isEmpty ∨
        front - bytes ≠ 0 ∧ x'.handler.writeReq = true) := by
  obtain ⟨-, hcalls⟩ := Option.ite_none_right_eq_some.mp hstep
  obtain ⟨r, hr, rfl⟩ := Option.map_eq_some_iff.mp hcalls
  obtain ⟨-, hr⟩ := Option.ite_none_left_eq_some.mp hr
  rw [ready_perform _ hready]
  cases hbufs : x.handler.outBufs with
  | nil =>
    rcases connected_iff.mp hup with hs | hs | hs <;> simp [onWrite, connected, hbufs, hs] at hr
  | cons front rest =>
    refine ⟨front, rest, rfl, ?_⟩
    obtain ⟨r', hr', houtput⟩ := output_onWrite none bytes hup hbufs
    obtain rfl := Option.some.inj (hr'.symm.trans hr)
    simp only at houtput
    split at houtput
    · next hzero =>
      simp only [ConnectionHandler.output, Prod.mk.injEq] at houtput
      exact Or.inl ⟨hzero, houtput.1, houtput.2.1⟩
    · next hzero =>
      simp only [ConnectionHandler.output, Prod.mk.injEq] at houtput
      exact Or.inr ⟨hzero, houtput.2.1⟩

/-- The step lemma: the queue of a connection that is down is empty, and so there is nothing to
write when it comes up. -/
theorem Pumping.step {e : Event} (hpumping : x.Pumping)
    (hcleared : x.handler.connected = false → x.handler.outBufs = [])
    (hstep : x.step e = some x') : x'.Pumping := by
  intro hready hidle
  rcases ready_of_step hstep hready with hup | hdown
  · have hconnected : x.handler.connected = true := connected_of_ready hup
    by_cases hdata : ∃ size, e = .onData size
    · obtain ⟨size, rfl⟩ := hdata
      exact absurd (hidle.symm.trans (outBufs_onData hconnected hstep hready).2) (by simp)
    · by_cases hwrote : ∃ ec bytes, e = .wrote ec bytes
      · obtain ⟨ec, bytes, rfl⟩ := hwrote
        cases ec with
        | some message => simp [not_ready_of_failed hstep] at hready
        | none =>
          obtain ⟨front, rest, -, hcases⟩ := outBufs_wrote hconnected hstep hready
          rcases hcases with ⟨-, hbufs, hreq⟩ | ⟨-, hreq⟩
          · rw [hbufs]
            simpa [hidle] using hreq
          · exact absurd (hidle.symm.trans hreq) (by simp)
      · rcases output_step hstep (fun size hsize ↦ hdata ⟨size, hsize⟩)
          (fun ec bytes hbytes ↦ hwrote ⟨ec, bytes, hbytes⟩) with ⟨houtput, -, -⟩ |
          ⟨-, -, hstate, -⟩
        · simp only [ConnectionHandler.output, Prod.mk.injEq] at houtput
          rw [houtput.1]
          exact hpumping hup (houtput.2.1.symm.trans hidle)
        · simp [ready_eq_false_of_state (Or.inl hstate)] at hready
  · -- the connection has just been established, which neither `onData` nor a write does
    have hkept : KeepsOutput x x' ∨ ClearsOutput x x' := by
      refine output_step hstep ?_ ?_
      · rintro size rfl
        obtain ⟨-, hcalls⟩ := Option.ite_none_right_eq_some.mp hstep
        obtain ⟨r, hr, rfl⟩ := Option.map_eq_some_iff.mp hcalls
        obtain rfl := Option.some.inj hr
        rw [ready_perform _ hready] at hready
        have hsame : (x.handler.onData size).1 = x.handler := by
          simp [ConnectionHandler.onData, hdown]
        simp [connected_of_ready (hsame ▸ hready)] at hdown
      · rintro ec bytes rfl
        obtain ⟨-, hcalls⟩ := Option.ite_none_right_eq_some.mp hstep
        obtain ⟨r, hr, rfl⟩ := Option.map_eq_some_iff.mp hcalls
        obtain ⟨-, hr⟩ := Option.ite_none_left_eq_some.mp hr
        rw [ready_perform _ hready] at hready
        have hsame : r.1.state = x.handler.state := by
          simp only [connected] at hdown
          simp only [onWrite, connected, hdown, Bool.not_false, ↓reduceIte] at hr
          rw [← Option.some.inj hr]
        have hup := connected_of_ready hready
        rw [connected, hsame] at hup
        exact absurd (hup.symm.trans hdown) (by simp)
    rcases hkept with ⟨houtput, -, -⟩ | ⟨-, -, hstate, -⟩
    · rw [show x'.handler.outBufs = x.handler.outBufs from congrArg (·.1) houtput]
      exact hcleared hdown
    · simp [ready_eq_false_of_state (Or.inl hstate)] at hready

end Execution

namespace Transmission

variable {x x' y : Transmission} {e : Event} {payloads : List UInt8} {n : ℕ}

/-- The connection is established and not shut down. -/
def Up (x : Transmission) : Prop := x.execution.handler.ready = true

instance (x : Transmission) : Decidable x.Up := inferInstanceAs (Decidable (_ = _))

/-- The socket accepts bytes, or has accepted a buffer as a whole. -/
def Event.advances : Event → Bool
  | .accept _ bytes => decide (0 < bytes)
  | .wrote _ none => true
  | _ => false

/-- The output of a connection that is up does not stall, and it is delivered: whatever else
happens, the payloads queued have been accepted after as many advances as they have bytes and
buffers. -/
structure Delivers (x : Transmission) : Prop where
  moves : x.outBufs ≠ [] → ∃ e, Event.advances e = true ∧ machine.step x e ≠ none
  delivers : ∀ es y, machine.run x es = some y → machine.Meets (fun z _ ↦ z.Up) x es → y.Up →
    x.queued.length + x.outBufs.length ≤ es.countP Event.advances → x.payloads <+: y.accepted

/-- What a step does to the queue of a connection that stays up. -/
inductive Passes (x : Transmission) : Event → Transmission → Prop
  | kept {e : Event} {x' : Transmission} (he : e.advances = false)
      (hbufs : x'.outBufs = x.outBufs) (haccepted : x'.accepted = x.accepted) : Passes x e x'
  | queued {e : Event} {x' : Transmission} (he : e.advances = false) (b : Buffer)
      (hbufs : x'.outBufs = x.outBufs ++ [b]) (haccepted : x'.accepted = x.accepted) : Passes x e x'
  | sent {write bytes : ℕ} {x' : Transmission} (b : Buffer) (rest : List Buffer)
      (hbytes : bytes ≤ b.content.length) (hbufs : x.outBufs = b :: rest)
      (hbufs' : x'.outBufs = { b with content := b.content.drop bytes } :: rest)
      (haccepted : x'.accepted = x.accepted ++ b.content.take bytes) :
      Passes x (.accept write bytes) x'
  | popped {e : Event} {x' : Transmission} (b : Buffer) (hcontent : b.content = [])
      (hbufs : x.outBufs = b :: x'.outBufs) (haccepted : x'.accepted = x.accepted) : Passes x e x'

/-- The payloads have been accepted, but for the buffers in front, and these take at most so many
advances. -/
def Owing (payloads : List UInt8) (n : ℕ) (x : Transmission) : Prop :=
  ∃ front back, x.outBufs = front ++ back ∧
    payloads <+: x.accepted ++ (front.map (·.content)).flatten ∧
    (front.map (·.content)).flatten.length + front.length ≤ n

/-- An advance brings the buffers in front nearer to their end. -/
theorem Owing.passes (h : Owing payloads n x) (hpasses : x.Passes e x') :
    Owing payloads (n - if e.advances then 1 else 0) x' := by
  obtain ⟨front, back, hsplit, hprefix, hcount⟩ := h
  cases hpasses with
  | kept he hbufs haccepted =>
    refine ⟨front, back, hbufs.trans hsplit, haccepted ▸ hprefix, ?_⟩
    simpa [he] using hcount
  | queued he b hbufs haccepted =>
    refine ⟨front, back ++ [b], ?_, haccepted ▸ hprefix, ?_⟩
    · rw [hbufs, hsplit, List.append_assoc]
    · simpa [he] using hcount
  | sent b rest hbytes hbufs hbufs' haccepted =>
    rw [hbufs] at hsplit
    cases front with
    | nil =>
      refine ⟨[], _, hbufs', ?_, by simp⟩
      rw [List.map_nil, List.flatten_nil, List.append_nil] at hprefix ⊢
      exact hprefix.trans (haccepted ▸ List.prefix_append _ _)
    | cons c front =>
      obtain ⟨rfl, hrest⟩ := List.cons.inj hsplit
      rw [hrest] at hbufs'
      refine ⟨_ :: front, back, hbufs', ?_, ?_⟩
      · rw [haccepted, List.map_cons, List.flatten_cons, List.append_assoc,
          ← List.append_assoc (b.content.take _), List.take_append_drop]
        simpa using hprefix
      · simp only [List.map_cons, List.flatten_cons, List.length_append, List.length_drop,
          List.length_cons] at hcount ⊢
        simp only [Event.advances, decide_eq_true_eq]
        split <;> omega
  | popped b hcontent hbufs haccepted =>
    rw [hbufs] at hsplit
    cases front with
    | nil => exact ⟨[], _, rfl, by simpa [haccepted] using hprefix, by simp⟩
    | cons c front =>
      obtain ⟨rfl, hrest⟩ := List.cons.inj hsplit
      refine ⟨front, back, hrest, ?_, ?_⟩
      · simpa [haccepted, hcontent] using hprefix
      · simp only [List.map_cons, List.flatten_cons, hcontent, List.nil_append,
          List.length_cons] at hcount
        split <;> omega

theorem Up.state_ne (hup : x.Up) : x.execution.handler.state ≠ .eNotConnected := by
  intro hstate
  have hup' : x.execution.handler.ready = true := hup
  simp [ready_eq_false_of_state (Or.inl hstate)] at hup'

/-- The one write there is, and the buffer that it writes. -/
theorem Flowing.front_of_write {write : ℕ} {w : Write} (hflowing : x.Flowing)
    (hwrite : x.writing[write]? = some w) :
    write = 0 ∧ x.writing = [w] ∧ ∃ b rest, x.outBufs = b :: rest ∧ x.position w = 0 ∧
      x.remaining w = b.content := by
  rcases hflowing.cases with hnone | ⟨w', b, rest, hone, hbufs, hnumber⟩
  · simp [hnone] at hwrite
  · obtain ⟨rfl, rfl⟩ : write = 0 ∧ w' = w := by
      rw [hone, List.getElem?_singleton] at hwrite
      split_ifs at hwrite with hzero
      exact ⟨hzero, Option.some.inj hwrite⟩
    exact ⟨rfl, hone, b, rest, hbufs, position_eq hbufs hnumber⟩

/-- As many buffers leave the queue as the handler takes from it. -/
theorem outBufs_follow (x : Transmission) (execution : Execution) {n : ℕ}
    (hlength : execution.handler.outBufs.length + n = x.outBufs.length) :
    (x.follow execution).outBufs = x.outBufs.drop n := by
  show x.outBufs.drop (x.outBufs.length - execution.handler.outBufs.length) = _
  congr 1
  omega

/-- A step of a connection that stays up. -/
theorem passes_of_step (hflowing : x.Flowing) (hup : x.Up) (hstep : x.step e = some x')
    (hup' : x'.Up) : x.Passes e x' := by
  have hlength := length_outBufs hflowing
  cases e with
  | onData payload =>
    obtain ⟨execution, hexecution, rfl⟩ := Option.map_eq_some_iff.mp hstep
    have hready : execution.handler.ready = true := hup'
    have hconnected : x.execution.handler.connected = true := connected_of_ready hup
    rw [if_pos hconnected]
    obtain ⟨hbufs, -⟩ := Execution.outBufs_onData hconnected hexecution hready
    refine .queued rfl ⟨x.made, x.execution.starts, payload⟩ ?_ rfl
    exact outBufs_follow (x.queue payload) execution (n := 0) (by simp [hbufs, hlength, queue])
  | accept write bytes =>
    obtain ⟨w, hwrite, hstep⟩ := Option.bind_eq_some_iff.mp hstep
    obtain ⟨hbytes, hstep⟩ := Option.ite_none_right_eq_some.mp hstep
    obtain rfl := Option.some.inj hstep
    obtain ⟨rfl, hone, b, rest, hbufs, hposition, hremaining⟩ := hflowing.front_of_write hwrite
    refine .sent b rest (hremaining ▸ hbytes) hbufs ?_ ?_
    · simp [Transmission.send, hposition, hbufs]
    · simp [Transmission.send, hremaining]
  | wrote write ec =>
    obtain ⟨w, hwrite, hstep⟩ := Option.bind_eq_some_iff.mp hstep
    obtain ⟨hempty, hstep⟩ := Option.ite_none_left_eq_some.mp hstep
    obtain ⟨execution, hexecution, rfl⟩ := Option.map_eq_some_iff.mp hstep
    have hready : execution.handler.ready = true := hup'
    obtain ⟨rfl, hone, b, rest, hbufs, -, hremaining⟩ := hflowing.front_of_write hwrite
    cases ec with
    | some message => simp [Execution.not_ready_of_failed hexecution] at hready
    | none =>
      have hcontent : b.content = [] := by
        rw [← hremaining]
        simpa using hempty
      obtain ⟨front, rest', hfront, hcases⟩ := Execution.outBufs_wrote
        (connected_of_ready hup) hexecution hready
      have hsizes : front :: rest' = (b.content.length + w.bytes) :: rest.map (·.content.length) :=
        hfront.symm.trans (hflowing.connected hone hbufs).2
      obtain ⟨rfl, rfl⟩ := List.cons.inj hsizes
      have hrest : execution.handler.outBufs = rest.map (·.content.length) := by
        rcases hcases with ⟨-, hrest, -⟩ | ⟨hne, -⟩
        · exact hrest
        · simp [hcontent] at hne
      refine .popped b hcontent ?_ rfl
      have hfollow := outBufs_follow { x with writing := x.writing.eraseIdx 0 } execution (n := 1)
        (by simp [hrest, hbufs])
      rw [hfollow, hbufs]
      rfl
  | other e =>
    have hkept (hstep : (x.execution.step e).map (fun execution ↦
        (x.restart execution.starts).follow execution) = some x')
        (hdata : ∀ size, e ≠ .onData size) (hwrote : ∀ ec bytes, e ≠ .wrote ec bytes) :
        x.Passes (.other e) x' := by
      obtain ⟨execution, hexecution, rfl⟩ := Option.map_eq_some_iff.mp hstep
      have hready : execution.handler.ready = true := hup'
      rcases Execution.output_step hexecution hdata hwrote with ⟨houtput, -, hstarts⟩ |
        ⟨-, -, hstate, -⟩
      · have hsame : execution.starts = x.execution.starts := by
          rcases hstarts with ⟨hsame, -⟩ | ⟨-, hstate⟩
          · exact hsame
          · exact absurd hstate hup.state_ne
        have hbufs : execution.handler.outBufs = x.execution.handler.outBufs :=
          congrArg (·.1) houtput
        have hrestart : x.restart execution.starts = x := if_pos hsame.symm
        rw [hrestart]
        have hfollow := outBufs_follow x execution (n := 0) (by rw [hbufs, hlength, Nat.add_zero])
        exact .kept rfl hfollow rfl
      · simp [ready_eq_false_of_state (Or.inl hstate)] at hready
    cases e with
    | onData | wrote => cases hstep
    | _ => exact hkept hstep (by simp) (by simp)

/-! ### Whole runs -/

/-- The contents are in order, and the writing goes on. -/
theorem pumping_of_reachable (h : machine.Reachable x) : x.Flowing ∧ x.execution.Pumping := by
  refine h.invariant (I := fun x ↦ x.Flowing ∧ x.execution.Pumping) ?_ ?_
  · rintro x rfl
    refine ⟨⟨rfl, ?_, ?_, fun _ ↦ rfl, ?_, fun _ ↦ rfl⟩, fun hready ↦ by cases hready⟩
    all_goals simp [initial]
  · rintro x e x' ⟨hflowing, hpumping⟩ hstep
    refine ⟨flowing_step hflowing hstep, ?_⟩
    have hcleared (hdown : x.execution.handler.connected = false) :
        x.execution.handler.outBufs = [] := by
      have hlength := length_outBufs hflowing
      rw [hflowing.cleared hdown] at hlength
      exact List.eq_nil_of_length_eq_zero hlength
    cases e with
    | onData payload =>
      obtain ⟨execution, hexecution, rfl⟩ := Option.map_eq_some_iff.mp hstep
      exact hpumping.step hcleared hexecution
    | accept write bytes =>
      obtain ⟨w, -, hstep⟩ := Option.bind_eq_some_iff.mp hstep
      obtain ⟨-, hstep⟩ := Option.ite_none_right_eq_some.mp hstep
      exact Option.some.inj hstep ▸ hpumping
    | wrote write ec =>
      obtain ⟨w, -, hstep⟩ := Option.bind_eq_some_iff.mp hstep
      obtain ⟨-, hstep⟩ := Option.ite_none_left_eq_some.mp hstep
      obtain ⟨execution, hexecution, rfl⟩ := Option.map_eq_some_iff.mp hstep
      exact hpumping.step hcleared hexecution
    | other e =>
      cases e with
      | onData | wrote => cases hstep
      | _ =>
        obtain ⟨execution, hexecution, rfl⟩ := Option.map_eq_some_iff.mp hstep
        exact hpumping.step hcleared hexecution

/-- While a write is outstanding, the event loop runs. -/
theorem pausing_of_write {w : Write} (hflowing : x.Flowing) (hone : x.writing = [w]) :
    x.execution.pausing = true := by
  have hreq : x.execution.handler.writeReq = true := by simp [writeReq_eq hflowing, hone]
  unfold Execution.pausing
  split
  · simp [waiting, hreq]
  · rfl

/-- While the connection is up, the socket can go on as long as there is something in the queue. -/
theorem Flowing.moves (hflowing : x.Flowing) (hpumping : x.execution.Pumping) (hup : x.Up)
    (hqueue : x.outBufs ≠ []) :
    ∃ e, Event.advances e = true ∧ machine.step x e ≠ none := by
  rcases hflowing.cases with hnone | ⟨w, b, rest, hone, hbufs, hnumber⟩
  · have hempty := hpumping hup (by simp [writeReq_eq hflowing, hnone])
    have hlength := length_outBufs hflowing
    rw [hempty] at hlength
    exact absurd (List.eq_nil_of_length_eq_zero hlength.symm) hqueue
  · obtain ⟨-, hremaining⟩ := position_eq hbufs hnumber
    have hwrite : x.writing[0]? = some w := by simp [hone]
    by_cases hcontent : b.content = []
    · obtain ⟨hconnected, hsizes⟩ := hflowing.connected hone hbufs
      obtain ⟨r, hr, -⟩ := output_onWrite none w.bytes hconnected hsizes
      have hwrites : x.execution.handler.writes ≠ 0 := by simp [writes_eq hflowing, hone]
      have hexecution : x.execution.step (.wrote none w.bytes) =
          some (x.execution.perform (ConnectionHandler.Event.wrote none w.bytes).message r) := by
        show (if x.execution.pausing then (x.execution.handler.method (.wrote none w.bytes)).map
          (x.execution.perform (ConnectionHandler.Event.wrote none w.bytes).message) else none) = _
        rw [if_pos (pausing_of_write hflowing hone)]
        simp [method, hwrites, hr]
      exact ⟨.wrote 0 none, rfl, by simp [step, hwrite, hremaining, hcontent, hexecution]⟩
    · have hbytes : 1 ≤ b.content.length := List.length_pos_iff.mpr hcontent
      exact ⟨.accept 0 1, rfl, by simp [step, hwrite, hremaining, hbytes]⟩

/-- The output of a connection that is up never stalls, and whatever else happens, the payloads
queued so far have gone out after as many advances as they have bytes and buffers left. -/
theorem delivers_of_reachable (h : machine.Reachable x) (hup : x.Up) : x.Delivers := by
  obtain ⟨hflowing, hpumping⟩ := pumping_of_reachable h
  refine ⟨hflowing.moves hpumping hup, ?_⟩
  intro es y hrun hmeets hup' hcount
  have howing : Owing x.payloads (x.queued.length + x.outBufs.length) x := by
    refine ⟨x.outBufs, [], by simp, ?_, Nat.le_refl _⟩
    rw [← hflowing.stream hup.state_ne]
    exact List.prefix_rfl
  obtain ⟨-, hy⟩ := hmeets.countdown (I := fun n z ↦ z.Flowing ∧ (z.Up → Owing x.payloads n z))
    Event.advances (fun n z e z' hz hzup hstep ↦ ⟨flowing_step hz.1 hstep, fun hzup' ↦
      (hz.2 hzup).passes (passes_of_step hz.1 hzup hstep hzup')⟩) hrun ⟨hflowing, fun _ ↦ howing⟩
  obtain ⟨front, back, -, hprefix, hnone⟩ := hy hup'
  have hfront : front = [] := List.eq_nil_of_length_eq_zero (by omega)
  simpa [hfront] using hprefix

/-- Two payloads are queued, and a byte of the first has been sent. -/
def sending : List Event :=
  [.other (.start true), .other (.resolved none), .other (.connectDone none), .onData [1, 2, 3],
    .onData [4, 5], .accept 0 1]

/-- Four bytes and two buffers are left. -/
theorem delivers_sending :
    ∃ x, machine.run initial sending = some x ∧ x.queued.length + x.outBufs.length = 6 ∧
      x.Delivers :=
  ⟨_, rfl, rfl, delivers_of_reachable ⟨initial, sending, rfl, rfl⟩ rfl⟩

end Transmission

end ConnectionHandler

end AmqpAsio
