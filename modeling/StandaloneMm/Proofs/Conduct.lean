import StandaloneMm.Proofs.Records

/-! The calls that a session makes, by its route. Each names the buffer by its physical base or an
endpoint by its identifier, and a partition is resumed only on the answer that asks for it. -/
namespace StandaloneMm

open Journal

variable {ω : Type}

/-- The calls that a session on this route makes, with its buffer at this physical base. -/
def Route.Permits (route : Route) (base : UInt64) (call : Registers) : Prop :=
  match route with
  | .legacy => call = Delivery.request .legacy base
  | .direct localId remote =>
    call = Delivery.request (.direct localId remote) base ∨ call = Delivery.resumeRequest remote ∨
      call = Discovery.unmapRequest localId

theorem Route.permits_request (route : Route) (base : UInt64) :
    route.Permits base (Delivery.request route base) := by
  cases route with
  | legacy => rfl
  | direct localId remote => exact .inl rfl

theorem Delivery.request_fresh (route : Route) (base : UInt64) :
    (request route base).x0 ≠ FunctionId.ffaRun ∧ (request route base).x0 ≠ FunctionId.ffaRxtxUnmap := by
  cases route with
  | legacy | direct =>
    simp only [request]
    decide

namespace Journal

/-- The last answer asks for the partition to be resumed. -/
def Asked (dealings : List Event) : Prop :=
  ∃ earlier answer, dealings = earlier ++ [.ret answer] ∧ answer.x0 = FunctionId.ffaInterrupt

theorem Asked.later {dealings : List Event} (asked : Asked dealings) (prior : List Event) :
    Asked (prior ++ dealings) := by
  obtain ⟨earlier, answer, rfl, asks⟩ := asked
  exact ⟨prior ++ earlier, answer, (List.append_assoc ..).symm, asks⟩

/-- How many of the calls take the scratch pages back. -/
def unmaps (dealings : List Event) : Nat :=
  (calls dealings).countP (·.x0 = FunctionId.ffaRxtxUnmap)

@[simp] theorem unmaps_append (a b : List Event) : unmaps (a ++ b) = unmaps a + unmaps b := by
  simp only [unmaps, calls_append, List.countP_append]

theorem unmaps_call {call : Registers} (other : call.x0 ≠ FunctionId.ffaRxtxUnmap) (answer : Registers) :
    unmaps [.call call, .ret answer] = 0 := by simp [unmaps, calls, other]

end Journal

/-- Calls and answers of a session on this route, behind others that came before. -/
structure Conduct (route : Route) (base : UInt64) (prior dealings : List Event) : Prop where
  permitted : ∀ call ∈ calls dealings, route.Permits base call
  resumed : ∀ before call after, dealings = before ++ .call call :: after →
    call.x0 = FunctionId.ffaRun → Asked (prior ++ before)

namespace Conduct

variable {route : Route} {base : UInt64} {prior first second dealings : List Event} {call : Registers}

theorem nil (prior : List Event) : Conduct route base prior [] where
  permitted := nofun
  resumed before call after split := by simp at split

theorem single (permits : route.Permits base call) (asked : call.x0 = FunctionId.ffaRun → Asked prior)
    (answer : Registers) : Conduct route base prior [.call call, .ret answer] where
  permitted other member := by
    obtain rfl : other = call := by simpa [calls] using member
    exact permits
  resumed before other after split run := by
    rcases before with _ | ⟨event, _ | ⟨event', more⟩⟩
    · obtain ⟨rfl, rfl⟩ := split
      simpa using asked run
    · simp at split
    · simp at split

theorem append (left : Conduct route base prior first) (right : Conduct route base (prior ++ first) second) :
    Conduct route base prior (first ++ second) where
  permitted call member := by
    rw [calls_append] at member
    rcases List.mem_append.mp member with early | late
    · exact left.permitted call early
    · exact right.permitted call late
  resumed before call after split run := by
    rcases List.append_eq_append_iff.mp split with ⟨more, rfl, within⟩ | ⟨more, within, rest⟩
    · rw [← List.append_assoc]
      exact right.resumed more call after within run
    · cases more with
      | nil =>
        have asked := right.resumed [] call after rest.symm run
        rwa [within, List.append_assoc, List.append_nil, List.append_nil] at asked
      | cons event more =>
        obtain ⟨rfl, _⟩ := List.cons_eq_cons.mp rest
        exact left.resumed before call more within run

theorem later (conduct : Conduct route base [] dealings) (prior : List Event) :
    Conduct route base prior dealings where
  permitted := conduct.permitted
  resumed before call after split run := (conduct.resumed before call after split run).later prior

end Conduct

/-- A world that keeps to itself: the session is out of its reach, and the calls on record are the
session's alone. -/
structure Monitor.Passive (monitor : Monitor ω) : Prop where
  session : ∀ call m, (monitor.call call m).2.session = m.session
  silent : ∀ call m, traffic (monitor.call call m).2.journal = traffic m.journal

/-- From one machine to another by calls that take no pages back. -/
structure Called (route : Route) (base : UInt64) (prior : List Event) (m after : Machine ω)
    (dealings : List Event) : Prop where
  session : after.session = m.session
  journal : traffic after.journal = traffic m.journal ++ dealings
  conduct : Conduct route base prior dealings
  unmaps : unmaps dealings = 0

namespace Called

variable {route : Route} {base : UInt64} {prior first second dealings events : List Event}
  {m middle after : Machine ω}

theorem refl (m : Machine ω) : Called route base prior m m [] :=
  ⟨rfl, (List.append_nil _).symm, .nil prior, rfl⟩

theorem trans (left : Called route base prior m middle first)
    (right : Called route base (prior ++ first) middle after second) :
    Called route base prior m after (first ++ second) where
  session := right.session.trans left.session
  journal := by rw [right.journal, left.journal, List.append_assoc]
  conduct := left.conduct.append right.conduct
  unmaps := by rw [unmaps_append, left.unmaps, right.unmaps]

theorem ofNoted (notes : Notes events) (called : Called route base prior (m.append events) after dealings) :
    Called route base prior m after dealings :=
  { called with journal := by rw [called.journal, traffic_noted m notes] }

end Called

namespace Monitor.Passive

variable {monitor : Monitor ω} (passive : monitor.Passive)

include passive

theorem calls_call (call : Registers) (m : Machine ω) :
    calls (monitor.call call m).2.journal = calls m.journal := by
  rw [← calls_traffic, passive.silent, calls_traffic]

theorem traffic_trap (m : Machine ω) (call : Registers) :
    traffic (m.trap monitor call).2.journal =
      traffic m.journal ++ [.call call, .ret (m.trap monitor call).1] := by
  have inside := passive.silent call (m.record (.call call))
  have whole : (m.trap monitor call).2.journal =
      (monitor.call call (m.record (.call call))).2.journal ++ [.ret (m.trap monitor call).1] := rfl
  have called : traffic (m.record (.call call)).journal = traffic m.journal ++ [.call call] :=
    traffic_append ..
  rw [whole, traffic_append, inside, called, List.append_assoc]
  rfl

theorem trap {route : Route} {base : UInt64} {prior : List Event} {call : Registers} (m : Machine ω)
    (permits : route.Permits base call) (asked : call.x0 = FunctionId.ffaRun → Asked prior)
    (other : call.x0 ≠ FunctionId.ffaRxtxUnmap) :
    Called route base prior m (m.trap monitor call).2 [.call call, .ret (m.trap monitor call).1] where
  session := passive.session call _
  journal := passive.traffic_trap m call
  conduct := .single permits asked _
  unmaps := unmaps_call other _

theorem resume (localId : UInt16) (remote : PartitionDescriptor) (base : UInt64) (patience : Nat)
    (earlier : List Event) (answer : Registers) (m : Machine ω) :
    ∃ dealings, Called (.direct localId remote) base (earlier ++ [.ret answer]) m
      (Transport.resume monitor remote patience answer m).2 dealings := by
  induction patience generalizing earlier answer m with
  | zero => exact ⟨[], .refl m⟩
  | succ patience ih =>
    rw [Transport.resume]
    split
    next preempts =>
      let run := Delivery.resumeRequest remote
      let next := (m.log .debug .mmComm).trap monitor run
      have permits : (Route.direct localId remote).Permits base run := .inr (.inl rfl)
      have asked : Asked (earlier ++ [.ret answer]) := ⟨earlier, answer, rfl, of_decide_eq_true preempts⟩
      have other : run.x0 ≠ FunctionId.ffaRxtxUnmap :=
        (by decide : FunctionId.ffaRun ≠ FunctionId.ffaRxtxUnmap)
      have resumed := passive.trap (m.log .debug .mmComm) permits (fun _ => asked) other
      obtain ⟨more, called⟩ := ih (earlier ++ [.ret answer] ++ [.call run]) next.1 next.2
      rw [List.append_assoc] at called
      exact ⟨_, (resumed.trans called).ofNoted notes_log⟩
    next => exact ⟨[], .refl m⟩

theorem callRemote (route : Route) (base : UInt64) (m : Machine ω) :
    ∃ dealings, Called route base [] m
      (Transport.callRemote monitor route (Delivery.request route base) m).2 dealings := by
  let call := Delivery.request route base
  obtain ⟨fresh, other⟩ := Delivery.request_fresh route base
  have requested : Called route base [] m (m.trap monitor call).2 _ :=
    passive.trap m (route.permits_request base) (absurd · fresh) other
  cases route with
  | legacy => exact ⟨_, requested⟩
  | direct localId remote =>
    let first := m.trap monitor call
    obtain ⟨more, resumed⟩ := passive.resume localId remote base (monitor.patience first.2) [.call call]
      first.1 first.2
    exact ⟨_, requested.trans resumed⟩

end Monitor.Passive

end StandaloneMm
