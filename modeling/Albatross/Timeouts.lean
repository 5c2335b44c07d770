/-
  Albatross/Timeouts.lean
  =======================
  **The timeout a call leaves on the socket.**

  Calls leave the default timeout there exactly when each call that puts another one
  on the socket ends through its last return (`timeouts_restored_iff`).
-/
import Albatross.SessionRuns

namespace Albatross.Session

open Python Wire Framing Calls ApiTable Assoc Runs

/-! ### The timeout a call leaves -/

/-- The client is connected, and its socket has the default timeout. -/
def Restored (c : Client) : Prop :=
  ∃ conn, c.sock = some conn ∧ conn.timeout = c.defaultTimeout.nanoseconds

def Op.isCall : Op → Bool
  | .call _ _ _ _ => true
  | _ => false

/-- If the call gets as far as putting another timeout on the socket, then its content is
    sent and its parser accepts the answer. -/
def RunsToEnd (m : Call) (timeout : Option ℚ) (c : Client) : Prop :=
  ∀ content conn seconds t, c.prohibitRequest = false → m.handler = .ok content →
    c.sock = some conn → timeout = some seconds → seconds ≠ 0 → checkTimeout seconds = .ok t →
      t.nanoseconds ≠ c.defaultTimeout.nanoseconds →
        Sends m.handler ∧ Completes m (callId c.callCounter) conn.wire

def Op.EndsIn (cls : ApiClass) (c : Client) : Op → Prop
  | .call name handler timeout raw => ∀ rpcId parser,
      (getattr cls name c).1 = .ok (.method rpcId parser) →
        RunsToEnd ⟨name, rpcId, handler, parser, raw⟩ timeout c
  | _ => True

section Timeouts

variable {cls : ApiClass} {m : Call} {timeout : Option ℚ} {c c' : Client} {conn conn' : Conn}

theorem setTimeout_cases (h : setTimeout timeout conn = .ok conn') :
    (conn' = conn ∧ ∀ t, restoreTimeout timeout t = id) ∨ ∃ seconds t, timeout = some seconds ∧
      seconds ≠ 0 ∧ checkTimeout seconds = .ok t ∧
        conn' = { conn with timeout := t.nanoseconds } := by
  unfold setTimeout at h
  split at h
  · cases h
    exact Or.inl ⟨rfl, fun _ => rfl⟩
  · next seconds =>
    split at h
    · next hzero =>
      cases h
      refine Or.inl ⟨rfl, fun t => funext fun k => ?_⟩
      rw [restoreTimeout, if_pos hzero]
      rfl
    · next hzero =>
      cases hcheck : checkTimeout seconds with
      | error e => rw [hcheck] at h; cases h
      | ok t =>
        rw [hcheck] at h
        cases h
        exact Or.inr ⟨seconds, t, rfl, hzero, hcheck, rfl⟩

theorem restoreTimeout_timeout {seconds : ℚ} (hne : seconds ≠ 0) (t : Timeout) (conn : Conn) :
    (restoreTimeout (some seconds) t conn).timeout = t.nanoseconds := by
  rw [restoreTimeout, if_neg hne]

theorem runsToEnd_of_untouched (h : ∀ content conn, c.prohibitRequest = false →
    m.handler = .ok content → c.sock = some conn → ∀ conn', setTimeout timeout conn ≠ .ok conn') :
    RunsToEnd m timeout c := by
  intro content conn seconds t hfree hhandler hsock htimeout hne hcheck _
  exfalso
  apply h content conn hfree hhandler hsock { conn with timeout := t.nanoseconds }
  rw [htimeout, setTimeout, if_neg hne, hcheck]
  rfl

/-- A call that sets another timeout and does not run to its end leaves it there. -/
theorem restored_iff_of_set {content : Content} {conn'' : Conn} (hfree : c.prohibitRequest = false)
    (hhandler : m.handler = .ok content) (hsock : c.sock = some conn)
    (hdefault : conn.timeout = c.defaultTimeout.nanoseconds)
    (hset : setTimeout timeout conn = .ok conn') (hkeep : conn''.timeout = conn'.timeout)
    (hno : ¬ (Sends m.handler ∧ Completes m (callId c.callCounter) conn'.wire)) :
    conn''.timeout = c.defaultTimeout.nanoseconds ↔ RunsToEnd m timeout c := by
  rw [setTimeout_wire hset] at hno
  rw [hkeep]
  rcases setTimeout_cases hset with ⟨rfl, hnone⟩ | ⟨seconds, t, htimeout, hne, hcheck, rfl⟩
  · refine ⟨fun _ => ?_, fun _ => hdefault⟩
    intro content' conn₁ seconds t _ _ _ htimeout hne _ hother
    have hid :=
      congrArg Conn.timeout (congrFun (hnone t) ⟨conn'.wire, c.defaultTimeout.nanoseconds⟩)
    rw [htimeout, restoreTimeout_timeout hne] at hid
    exact absurd hid hother
  · constructor
    · intro hsame content' conn₁ seconds' t' _ _ _ htimeout' _ hcheck' hother
      rw [htimeout] at htimeout'
      cases htimeout'
      rw [hcheck] at hcheck'
      cases hcheck'
      exact absurd hsame hother
    · intro hends
      by_contra hother
      exact hno (hends content conn seconds t hfree hhandler hsock htimeout hne hcheck hother)

theorem Invoked.restored_iff (h : Invoked m timeout c c') (hc : Restored c) :
    Restored c' ↔ RunsToEnd m timeout c := by
  obtain ⟨conn₀, hsock₀, hdefault⟩ := hc
  have hconn : ∀ {conn : Conn}, c.sock = some conn →
      conn.timeout = c.defaultTimeout.nanoseconds := by
    intro conn hsock
    rw [hsock₀] at hsock
    cases hsock
    exact hdefault
  have hsome : ∀ conn : Conn, (∃ k, some conn = some k ∧ k.timeout = c.defaultTimeout.nanoseconds) ↔
      conn.timeout = c.defaultTimeout.nanoseconds := by
    intro conn
    simp
  cases h with
  | banned hban =>
    refine ⟨fun _ => ?_, fun _ => ⟨conn₀, hsock₀, hdefault⟩⟩
    exact runsToEnd_of_untouched fun _ _ hfree => by rw [hban] at hfree; cases hfree
  | unprepared _ hhandler =>
    refine ⟨fun _ => ?_, fun _ => ⟨conn₀, hsock₀, hdefault⟩⟩
    exact runsToEnd_of_untouched fun _ _ _ hok => by rw [hhandler] at hok; cases hok
  | closed _ _ hsock =>
    rw [hsock₀] at hsock
    cases hsock
  | badTimeout _ _ hsock hset =>
    refine ⟨fun _ => ?_, fun _ => ⟨conn₀, hsock₀, hdefault⟩⟩
    apply runsToEnd_of_untouched
    intro _ conn' _ _ hsock' conn'' hok
    rw [hsock] at hsock'
    cases hsock'
    rw [hset] at hok
    cases hok
  | kept hfree hhandler hsock hset =>
    refine (hsome _).trans ?_
    apply restored_iff_of_set hfree hhandler hsock (hconn hsock) hset rfl
    rintro ⟨hsends, -⟩
    rw [hhandler] at hsends
    exact hsends
  | failed hfree hsends hsock hset hno hkeep _ =>
    refine (hsome _).trans ?_
    cases hhandler : m.handler with
    | error e => rw [hhandler] at hsends; exact hsends.elim
    | ok content =>
      exact restored_iff_of_set hfree hhandler hsock (hconn hsock) hset hkeep fun h => hno h.2
  | completed hfree hsends hsock hset hends hkeep _ =>
    refine (hsome _).trans ?_
    rw [setTimeout_wire hset] at hends
    constructor
    · intro _ content conn₁ _ _ _ _ hsock₁ _ _ _ _
      rw [hsock] at hsock₁
      cases hsock₁
      exact ⟨hsends, hends⟩
    · intro _
      rcases setTimeout_cases hset with ⟨rfl, hnone⟩ | ⟨seconds, t, rfl, hne, _, _⟩
      · rw [hnone]
        exact hkeep.trans (hconn hsock)
      · exact restoreTimeout_timeout hne _ _

/-- One call restores the default timeout exactly when it runs to its end, if it needs to. -/
theorem step_restored_iff {op : Op} (hcall : op.isCall = true) (h : step cls c op = some c')
    (hc : Restored c) : Restored c' ↔ op.EndsIn cls c := by
  cases op with
  | call name handler timeout raw =>
    obtain ⟨attrs, hframe⟩ := getattr_frame cls name c
    rw [step, call] at h
    split at h
    · next e c₁ hget =>
      cases h
      have hsame : c' = { c with attrs := attrs } := by rw [← hframe, hget]
      refine ⟨fun _ rpcId parser hfound => ?_, fun _ => by rw [hsame]; exact hc⟩
      rw [hget] at hfound
      cases hfound
    · next c₁ hget =>
      cases h
      have hsame : c' = { c with attrs := attrs } := by rw [← hframe, hget]
      refine ⟨fun _ rpcId parser hfound => ?_, fun _ => by rw [hsame]; exact hc⟩
      rw [hget] at hfound
      cases hfound
    · next rpcId parser c₁ hget =>
      have hsame : c₁ = { c with attrs := attrs } := by rw [← hframe, hget]
      rw [hsame] at h
      have hone := (invoke_cases h).restored_iff hc
      rw [hone]
      constructor
      · intro hends rpcId' parser' hfound
        rw [hget] at hfound
        cases hfound
        exact hends
      · intro hends
        exact hends rpcId parser (by rw [hget])
  | _ => cases hcall

/-- **Calls leave the default timeout on the socket exactly when each one that puts another
    there runs to its end.** -/
theorem timeouts_restored_iff {c₀ : Client} {ops : List Op} (hcalls : ∀ op ∈ ops, op.isCall = true)
    (h₀ : Restored c₀) :
    (∀ c op c', Takes (step cls) c₀ ops c op c' → Restored c') ↔
      ∀ c op c', Takes (step cls) c₀ ops c op c' → op.EndsIn cls c := by
  apply forall_takes_iff h₀
  intro c op c' ht hc
  exact step_restored_iff (hcalls op ht.mem) ht.one hc

/-! #### A void call with a timeout of its own -/

def sockTimeout (c : Client) : Option Int := c.sock.map Conn.timeout

theorem restored_iff_sockTimeout :
    Restored c ↔ sockTimeout c = some c.defaultTimeout.nanoseconds := by
  rw [Restored, sockTimeout, Option.map_eq_some_iff]

theorem restored_started :
    ∃ c, run (step pinging) (Client.new "c" hundredSeconds) started = some c ∧
    Restored c := by
  have htimeouts : (run (step pinging) (Client.new "c" hundredSeconds) started).map
      (fun c => (sockTimeout c, c.defaultTimeout.nanoseconds)) =
        some (some 100000000000, 100000000000) := by decide +kernel
  obtain ⟨c, hc, hstate⟩ := Option.map_eq_some_iff.mp htimeouts
  obtain ⟨hsock, hdefault⟩ := Prod.mk.inj hstate
  exact ⟨c, hc, restored_iff_sockTimeout.mpr (by rw [hsock, hdefault])⟩

theorem timeouts_restored_iff_ping : ∃ c₀,
    run (step pinging) (Client.new "c" hundredSeconds) started = some c₀ ∧
      ((∀ c op c', Takes (step pinging) c₀ [ping, answered] c op c' → Restored c') ↔
        ∀ c op c', Takes (step pinging) c₀ [ping, answered] c op c' → op.EndsIn pinging c) := by
  obtain ⟨c₀, hrun, hc₀⟩ := restored_started
  exact ⟨c₀, hrun, timeouts_restored_iff (by decide) hc₀⟩

/-- `client.ping(timeout=2)`. -/
def hasty : Op := .call "ping" (.ok (.bytes [])) (some 2) false

/-- It leaves its two seconds on the socket. -/
theorem hasty_leaks : ∃ c c', run (step pinging) (Client.new "c" hundredSeconds) started = some c ∧
    Restored c ∧ step pinging c hasty = some c' ∧ ¬ Restored c' := by
  obtain ⟨c, hc, hrestored⟩ := restored_started
  have htimeouts : ((run (step pinging) (Client.new "c" hundredSeconds) started).bind fun c =>
      step pinging c hasty).map (fun c => (sockTimeout c, c.defaultTimeout.nanoseconds)) =
        some (some 2000000000, 100000000000) := by decide +kernel
  rw [hc] at htimeouts
  obtain ⟨c', hstep, hstate⟩ := Option.map_eq_some_iff.mp htimeouts
  obtain ⟨hsock, hdefault⟩ := Prod.mk.inj hstate
  refine ⟨c, c', hc, hrestored, hstep, ?_⟩
  rw [restored_iff_sockTimeout, hsock, hdefault]
  decide

end Timeouts

end Albatross.Session
