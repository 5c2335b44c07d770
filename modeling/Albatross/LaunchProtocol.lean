/-
  Albatross/LaunchProtocol.lean
  =============================
  **Launches between the host and the system server** (`device.py`: `launch`,
  `on_launch_process`; `SystemServerInjectAgent.java`: `setInterceptApp`,
  `notifyProcessLaunch`; `ActivityManagerServiceH.java`: `interceptCheck`).

  A launch asks the system server to intercept an app, and files its record when it has the
  answer; the system server reports a process that starts and waits for the answer of the
  host, which takes the app out when it is -1.  Each request, report and answer is under
  way for any time, any number of launches and starts are under way at once, and the
  tables of the host are touched as in `LaunchRaces`.

  With nothing in between, the steps of a launch and of a start do what `Launches` says
  (`launch_alone`, `start_alone`).

  A handler that raises is answered with the command byte of the broadcast itself
  (`command`).  The system server waits for an answer or gives up, which is not taken for
  the answer -1, and its other clients may change the registry.  A report is named by a
  number that is not used again.
-/
import Albatross.LaunchBudgets
import Albatross.LaunchRaces

namespace Albatross.LaunchProtocol

open Assoc Registry Runs
open LaunchRaces (Host Handler)
open Launches (PluginRecord)

/-! ### The parties -/

/-- A launch that has sent `set_intercept_app`, or has its answer. -/
inductive Request where
  | asking (pkg : JavaString) (record : PluginRecord)
  | answered (appId : Int) (record : PluginRecord)

structure Report where
  launch : Launch
  answer : Option Int

/-- The report that the host is handling, for a uid, and what it will answer. -/
structure Handling where
  report : Nat
  uid : Int
  ret : Option Int

structure State where
  agent : Agent
  host : Host
  requests : Nat → Option Request
  reports : Nat → Option Report
  sent : Nat
  handling : Option Handling

def State.initial : State := ⟨.initial, .initial, fun _ => none, fun _ => none, 0, none⟩

def State.setRequest (s : State) (t : Nat) (q : Option Request) : State :=
  { s with requests := Function.update s.requests t q }

def State.setReport (s : State) (i : Nat) (r : Option Report) : State :=
  { s with reports := Function.update s.reports i r }

theorem State.requests_self (s : State) (t : Nat) (q : Option Request) :
    (s.setRequest t q).requests t = q := Function.update_self ..

theorem State.requests_of_ne (s : State) {t t' : Nat} (q : Option Request) (h : t' ≠ t) :
    (s.setRequest t q).requests t' = s.requests t' := Function.update_of_ne h ..

theorem State.reports_self (s : State) (i : Nat) (r : Option Report) :
    (s.setReport i r).reports i = r := Function.update_self ..

theorem State.reports_of_ne (s : State) {i i' : Nat} (r : Option Report) (h : i' ≠ i) :
    (s.setReport i r).reports i' = s.reports i' := Function.update_of_ne h ..

inductive Label where
  | launch (t : Nat) (pkg : JavaString) (record : PluginRecord)
  | setInterceptApp (t : Nat)
  | abandon (t : Nat)
  | file (t : Nat)
  | reset (t : Nat)
  | start (pid uid : Int) (r : ProcessRecord) (subscriberSize : Nat)
  | handle (i : Nat)
  | read
  | write
  | answer (raised delivered : Bool)
  | settle (i : Nat)
  | giveUp (i : Nat)
  | other (op : Op)

/-! ### Steps -/

/-- `if clear_history_launch: launch_callback.clear()`. -/
def cleared (clearHistoryLaunch : Bool) (host : Host) : Host :=
  if clearHistoryLaunch then { host with processLaunchCallback := ∅ } else host

section Steps

variable (uidOf : JavaString → Option Int) (maxLaunchCount : Nat) (clearHistoryLaunch : Bool)
  (command : Nat)

/-- `launch` up to the request. -/
def launch (t : Nat) (pkg : JavaString) (record : PluginRecord) (s : State) : Option State :=
  match s.requests t, s.host.launching t with
  | none, none =>
      some ({ s with host := cleared clearHistoryLaunch s.host }.setRequest t
        (some (.asking pkg record)))
  | _, _ => none

def setInterceptApp (t : Nat) (s : State) : Option State :=
  match s.requests t with
  | some (.asking pkg record) =>
      let (appId, agent) := Registry.setInterceptApp uidOf (some pkg) clearHistoryLaunch s.agent
      some ({ s with agent := agent }.setRequest t (some (.answered appId record)))
  | _ => none

def abandon (t : Nat) (s : State) : Option State :=
  match s.requests t with
  | some _ => some (s.setRequest t none)
  | none => none

def file (t : Nat) (s : State) : Option State :=
  match s.requests t with
  | some (.answered appId record) =>
      (LaunchRaces.file t appId record s.host).map fun host =>
        { s with host := host }.setRequest t none
  | _ => none

def reset (t : Nat) (s : State) : Option State :=
  (LaunchRaces.reset t s.host).map fun host => { s with host := host }

def start (pid uid : Int) (r : ProcessRecord) (subscriberSize : Nat) (s : State) : State :=
  match interceptCheck s.agent subscriberSize pid uid r with
  | none => s
  | some l => { s.setReport s.sent (some ⟨l, none⟩) with sent := s.sent + 1 }

/-- The host takes a report up to its first look, and answers one without a record. -/
def handle (i : Nat) (s : State) : Option State :=
  match s.handling, s.reports i with
  | none, some ⟨l, none⟩ =>
      (LaunchRaces.lookup l.uid s.host).map fun host =>
        match host.handler with
        | .idle => s.setReport i (some ⟨l, some 1⟩)
        | _ => { s with host := host, handling := some ⟨i, l.uid, none⟩ }
  | _, _ => none

/-- A `KeyError` ends the handler. -/
def read (s : State) : Option State :=
  (LaunchRaces.read s.host).map fun host =>
    match host.handler with
    | .idle =>
        { s with
          host := host
          handling := s.handling.map fun h => { h with ret := some command } }
    | _ => { s with host := host }

/-- The count is written and compared, and the record is attached. -/
def write (s : State) : Option State :=
  match s.host.handler, s.handling with
  | .counted _ _ count, some h =>
      (LaunchRaces.write s.host).map fun host =>
        let ret := if count < maxLaunchCount then 1 else -1
        { s with host := host, handling := some { h with ret := some ret } }
  | _, _ => none

/-- `attach` may raise, and an answer that is sent reaches the system server if it still waits. -/
def answer (raised delivered : Bool) (s : State) : Option State :=
  match s.handling with
  | some ⟨i, _, some ret⟩ =>
      let ret := if raised ∧ ret ≠ -1 then (command : Int) else ret
      if delivered then
        some { s.setReport i ((s.reports i).map fun r => { r with answer := some ret }) with
          handling := none }
      else some { s with handling := none }
  | _ => none

/-- `notifyProcessLaunch` has its answer. -/
def settle (i : Nat) (s : State) : Option State :=
  match s.reports i with
  | some ⟨l, some ret⟩ =>
      some ({ s with agent := notifyProcessLaunch ret l s.agent }.setReport i none)
  | _ => none

def giveUp (i : Nat) (s : State) : Option State :=
  match s.reports i with
  | some ⟨_, none⟩ => some (s.setReport i none)
  | _ => none

def step (s : State) : Label → Option State
  | .launch t pkg record => launch clearHistoryLaunch t pkg record s
  | .setInterceptApp t => setInterceptApp uidOf clearHistoryLaunch t s
  | .abandon t => abandon t s
  | .file t => file t s
  | .reset t => reset t s
  | .start pid uid r subscriberSize => some (start pid uid r subscriberSize s)
  | .handle i => handle i s
  | .read => read command s
  | .write => write maxLaunchCount s
  | .answer raised delivered => answer command raised delivered s
  | .settle i => settle i s
  | .giveUp i => giveUp i s
  | .other op => some { s with agent := s.agent.apply uidOf op }

end Steps

section Cases

variable {uidOf : JavaString → Option Int} {maxLaunchCount : Nat} {clearHistoryLaunch : Bool}
  {command : Nat} {s s' : State}

theorem launch_cases {t : Nat} {pkg : JavaString} {record : PluginRecord}
    (h : launch clearHistoryLaunch t pkg record s = some s') :
    s.requests t = none ∧ s.host.launching t = none ∧
      s' = { s with host := cleared clearHistoryLaunch s.host }.setRequest t
        (some (.asking pkg record)) := by
  unfold launch at h
  split at h
  · next hrequest hlaunching => exact ⟨hrequest, hlaunching, (Option.some.inj h).symm⟩
  · cases h

theorem setInterceptApp_cases {t : Nat}
    (h : setInterceptApp uidOf clearHistoryLaunch t s = some s') :
    ∃ pkg record, s.requests t = some (.asking pkg record) ∧
      s' = { s with
        agent := (Registry.setInterceptApp uidOf (some pkg) clearHistoryLaunch s.agent).2
        }.setRequest t (some (.answered
          (Registry.setInterceptApp uidOf (some pkg) clearHistoryLaunch s.agent).1 record)) := by
  unfold setInterceptApp at h
  split at h
  · next pkg record hrequest => exact ⟨pkg, record, hrequest, (Option.some.inj h).symm⟩
  · cases h

theorem abandon_cases {t : Nat} (h : abandon t s = some s') : s' = s.setRequest t none := by
  unfold abandon at h
  split at h
  · exact (Option.some.inj h).symm
  · cases h

theorem file_cases {t : Nat} (h : file t s = some s') :
    ∃ appId record host, s.requests t = some (.answered appId record) ∧
      LaunchRaces.file t appId record s.host = some host ∧
      s' = { s with host := host }.setRequest t none := by
  unfold file at h
  split at h
  · next appId record hrequest =>
    obtain ⟨host, hfile, rfl⟩ := Option.map_eq_some_iff.mp h
    exact ⟨appId, record, host, hrequest, hfile, rfl⟩
  · cases h

theorem reset_cases {t : Nat} (h : reset t s = some s') :
    ∃ host, LaunchRaces.reset t s.host = some host ∧ s' = { s with host := host } := by
  obtain ⟨host, hreset, rfl⟩ := Option.map_eq_some_iff.mp h
  exact ⟨host, hreset, rfl⟩

theorem start_cases (pid uid : Int) (r : ProcessRecord) (n : Nat) :
    start pid uid r n s = s ∨
      start pid uid r n s = { s.setReport s.sent (some ⟨launchOf pid uid r, none⟩) with
        sent := s.sent + 1 } := by
  unfold start
  split
  · exact Or.inl rfl
  · next l hl =>
    obtain ⟨rfl, _⟩ := Launches.interceptCheck_eq_some hl
    exact Or.inr rfl

theorem handle_cases {i : Nat} (h : handle i s = some s') :
    ∃ l, s.handling = none ∧ s.reports i = some ⟨l, none⟩ ∧
      (s' = s.setReport i (some ⟨l, some 1⟩) ∨
        ∃ record, LaunchRaces.lookup l.uid s.host =
            some { s.host with handler := .found l.uid record } ∧
          s' = { s with
            host := { s.host with handler := .found l.uid record }
            handling := some ⟨i, l.uid, none⟩ }) := by
  unfold handle at h
  split at h
  · next l hhandling hreport =>
    refine ⟨l, hhandling, hreport, ?_⟩
    obtain ⟨host, hlookup, rfl⟩ := Option.map_eq_some_iff.mp h
    have hhost := hlookup
    unfold LaunchRaces.lookup at hhost
    split at hhost
    · next hidle =>
      obtain rfl := Option.some.inj hhost
      cases hrecord : s.host.processLaunchCallback.lookup l.uid with
      | none =>
        refine Or.inl ?_
        simp only [hidle]
      | some record =>
        simp only [hrecord] at hlookup
        exact Or.inr ⟨record, hlookup, rfl⟩
    · cases hhost
  · cases h

theorem read_cases (h : read command s = some s') :
    ∃ uid record, s.host.handler = .found uid record ∧
      ((s' = { s with
            host := { s.host with handler := .idle }
            handling := s.handling.map fun h => { h with ret := some (command : Int) } } ∧
          LaunchRaces.read s.host = some { s.host with handler := .idle }) ∨
        ∃ count, s' = { s with host := { s.host with handler := .counted uid record count } } ∧
          LaunchRaces.read s.host =
            some { s.host with handler := .counted uid record count }) := by
  obtain ⟨host, hread, rfl⟩ := Option.map_eq_some_iff.mp h
  have hhost := hread
  unfold LaunchRaces.read at hhost
  split at hhost
  · next uid record hfound =>
    refine ⟨uid, record, hfound, ?_⟩
    obtain rfl := Option.some.inj hhost
    split at hread
    · exact Or.inl ⟨rfl, hread⟩
    · next count _ => exact Or.inr ⟨count, rfl, hread⟩
  · cases hhost

theorem write_cases (h : write maxLaunchCount s = some s') :
    ∃ uid record count handling host, s.host.handler = .counted uid record count ∧
      s.handling = some handling ∧ LaunchRaces.write s.host = some host ∧
      s' = { s with
        host := host
        handling := some { handling with
          ret := some (if count < maxLaunchCount then 1 else -1) } } := by
  unfold write at h
  split at h
  · next uid record count handling hcounted hhandling =>
    obtain ⟨host, hwrite, rfl⟩ := Option.map_eq_some_iff.mp h
    exact ⟨uid, record, count, handling, host, hcounted, hhandling, hwrite, rfl⟩
  · cases h

theorem answer_cases {raised delivered : Bool}
    (h : answer command raised delivered s = some s') :
    ∃ i uid ret, s.handling = some ⟨i, uid, some ret⟩ ∧
      (s' = { s with handling := none } ∨ ∃ sent : Int, (sent = -1 → ret = -1) ∧
        s' = { s.setReport i ((s.reports i).map fun r => { r with answer := some sent }) with
          handling := none }) := by
  unfold answer at h
  split at h
  · next i uid ret hhandling =>
    refine ⟨i, uid, ret, hhandling, ?_⟩
    cases delivered with
    | false => exact Or.inl (Option.some.inj h).symm
    | true =>
      refine Or.inr ⟨_, fun hsent => ?_, (Option.some.inj h).symm⟩
      split at hsent
      · omega
      · exact hsent
  · cases h

theorem settle_cases {i : Nat} (h : settle i s = some s') :
    ∃ l ret, s.reports i = some ⟨l, some ret⟩ ∧
      s' = { s with agent := notifyProcessLaunch ret l s.agent }.setReport i none := by
  unfold settle at h
  split at h
  · next l ret hreport => exact ⟨l, ret, hreport, (Option.some.inj h).symm⟩
  · cases h

theorem giveUp_cases {i : Nat} (h : giveUp i s = some s') : s' = s.setReport i none := by
  unfold giveUp at h
  split at h
  · exact (Option.some.inj h).symm
  · cases h

end Cases

/-! ### One after the other -/

section Alone

variable {uidOf : JavaString → Option Int} {maxLaunchCount : Nat} {clearHistoryLaunch : Bool}
  {command : Nat} {s : State} {d : Launches.Device}

theorem holds_cleared (h : LaunchRaces.Holds s.host d) :
    LaunchRaces.Holds (cleared clearHistoryLaunch s.host)
      (if clearHistoryLaunch then d.clearCallbacks else d) := by
  cases clearHistoryLaunch with
  | false => exact h
  | true => exact ⟨rfl, h.count⟩

theorem launch_alone (h : LaunchRaces.Holds s.host d) {t : Nat} (hrequest : s.requests t = none)
    (hlaunching : s.host.launching t = none) (pkg : JavaString) (record : PluginRecord)
    (trace : List Launches.Notice) :
    ∃ s', run (step uidOf maxLaunchCount clearHistoryLaunch command) s
        [.launch t pkg record, .setInterceptApp t, .file t, .reset t] = some s' ∧
      s'.agent = (Launches.launch clearHistoryLaunch uidOf pkg record ⟨s.agent, d, trace⟩).agent ∧
      LaunchRaces.Holds s'.host
        (Launches.launch clearHistoryLaunch uidOf pkg record ⟨s.agent, d, trace⟩).device := by
  have hthread : (cleared clearHistoryLaunch s.host).launching t = none := by
    cases clearHistoryLaunch <;> exact hlaunching
  let asked := { s with host := cleared clearHistoryLaunch s.host }.setRequest t
    (some (.asking pkg record))
  have hlaunch : launch clearHistoryLaunch t pkg record s = some asked := by
    simp only [launch, hrequest, hlaunching]
    rfl
  cases hset : Registry.setInterceptApp uidOf (some pkg) clearHistoryLaunch s.agent with
  | mk appId agent =>
    let replied := { asked with agent := agent }.setRequest t (some (.answered appId record))
    have hreply : setInterceptApp uidOf clearHistoryLaunch t asked = some replied := by
      have hagent : asked.agent = s.agent := rfl
      have hasked : asked.requests t = some (.asking pkg record) := State.requests_self ..
      simp only [setInterceptApp, hasked, hagent, hset]
      rfl
    have hreplied : replied.requests t = some (.answered appId record) := State.requests_self ..
    obtain ⟨host, hrun, hholds, -⟩ :=
      LaunchRaces.launch_alone (holds_cleared h) hthread appId record
    obtain ⟨filed, hfile, hrest⟩ := Option.bind_eq_some_iff.mp hrun
    obtain ⟨host', hreset, hnil⟩ := Option.bind_eq_some_iff.mp hrest
    obtain rfl := Option.some.inj hnil
    have hfiled : file t replied = some ({ replied with host := filed }.setRequest t none) := by
      simp only [file, hreplied]
      exact congrArg (Option.map _) hfile
    refine ⟨{ { replied with host := filed }.setRequest t none with host := host' }, ?_, ?_, ?_⟩
    · simp only [run_cons, run_nil, step, hlaunch, hreply, hfiled, Option.bind_some]
      exact congrArg (fun x => (Option.map _ x).bind some) hreset
    · simp only [Launches.launch, hset]
      rfl
    · simp only [Launches.launch, hset]
      exact hholds

theorem answer_false {l : Launch} {i : Nat} {uid ret : Int}
    (hhandling : s.handling = some ⟨i, uid, some ret⟩) (hreport : s.reports i = some ⟨l, none⟩) :
    answer command false true s = some { s.setReport i (some ⟨l, some ret⟩) with handling := none } := by
  simp [answer, hhandling, hreport]

variable (uidOf maxLaunchCount clearHistoryLaunch command) in
theorem handle_alone (h : LaunchRaces.Holds s.host d) (hnone : s.handling = none)
    (hidle : s.host.handler = .idle) {l : Launch} {i : Nat}
    (hreport : s.reports i = some ⟨l, none⟩) :
    ∃ ls s', run (step uidOf maxLaunchCount clearHistoryLaunch command) s ls = some s' ∧
      s'.agent = s.agent ∧
      s'.reports i = some ⟨l, some (Launches.onLaunchProcess maxLaunchCount l.uid d).1⟩ ∧
      LaunchRaces.Holds s'.host (Launches.onLaunchProcess maxLaunchCount l.uid d).2.2 := by
  cases hrecord : s.host.processLaunchCallback.lookup l.uid with
  | none =>
    obtain ⟨hlookup, hd⟩ := LaunchRaces.start_alone_none h hidle hrecord maxLaunchCount
    have hhandle : handle i s = some (s.setReport i (some ⟨l, some 1⟩)) := by
      simp only [handle, hnone, hreport, hlookup, Option.map_some, hidle]
    refine ⟨[.handle i], s.setReport i (some ⟨l, some 1⟩), ?_, rfl, ?_, ?_⟩
    · simp only [run_cons, run_nil, step, hhandle, Option.bind_some]
    · rw [State.reports_self, hd]
    · rw [hd]
      exact h
  | some record =>
    have hsome : d.processLaunchCallback.lookup l.uid = some record := h.callback ▸ hrecord
    obtain ⟨count, hcount⟩ := Option.isSome_iff_exists.mp (d.counted l.uid (by rw [hsome]; rfl))
    have hread : s.host.appLaunchCount.lookup l.uid = some count := h.count ▸ hcount
    let found := { s with
      host := { s.host with handler := .found l.uid record }
      handling := some ⟨i, l.uid, none⟩ }
    let counted := { found with host := { s.host with handler := .counted l.uid record count } }
    let ret : Int := if count < maxLaunchCount then 1 else -1
    let written := { counted with
      host := { s.host.store l.uid (count + 1) (s.host.since l.uid + 1) with handler := .idle }
      handling := some ⟨i, l.uid, some ret⟩ }
    let replied := { written.setReport i (some ⟨l, some ret⟩) with handling := none }
    have hhandle : handle i s = some found := by
      simp only [handle, hnone, hreport, LaunchRaces.lookup, hidle, hrecord, Option.map_some]
      rfl
    have hcounted : read command found = some counted := by
      simp only [read, LaunchRaces.read, found, hread, Option.map_some]
      rfl
    have hwrite : write maxLaunchCount counted = some written := rfl
    have hanswer : answer command false true written = some replied := answer_false rfl hreport
    have hd := LaunchRaces.onLaunchProcess_some hsome hcount maxLaunchCount
    refine ⟨[.handle i, .read, .write, .answer false true], replied, ?_, rfl, ?_, ?_⟩
    · simp only [run_cons, run_nil, step, hhandle, hcounted, hwrite, hanswer, Option.bind_some]
    · refine (State.reports_self ..).trans ?_
      rw [hd]
      simp only [ret]
      split <;> rfl
    · have htables : LaunchRaces.Holds replied.host (d.count l.uid count) :=
        ⟨h.callback, congrArg (·.insert l.uid (count + 1)) h.count⟩
      rw [hd]
      split <;> exact htables

theorem start_alone (h : LaunchRaces.Holds s.host d) (hnone : s.handling = none)
    (hidle : s.host.handler = .idle) (pid uid : Int) (pkg : JavaString) (processName : String)
    (trace : List Launches.Notice) :
    ∃ ls s', run (step uidOf maxLaunchCount clearHistoryLaunch command) s ls = some s' ∧
      s'.agent = (Launches.processStart maxLaunchCount pid uid pkg processName
        ⟨s.agent, d, trace⟩).agent ∧
      LaunchRaces.Holds s'.host (Launches.processStart maxLaunchCount pid uid pkg processName
        ⟨s.agent, d, trace⟩).device := by
  unfold Launches.processStart
  cases hcheck : interceptCheck s.agent 1 pid uid ⟨processName, some pkg, none, none⟩ with
  | none => exact ⟨[], s, rfl, rfl, h⟩
  | some l =>
    obtain rfl : l.uid = uid := by rw [(Launches.interceptCheck_eq_some hcheck).1]; rfl
    let started := { s.setReport s.sent (some ⟨l, none⟩) with sent := s.sent + 1 }
    have hstart : start pid l.uid ⟨processName, some pkg, none, none⟩ 1 s = started := by
      simp only [start, hcheck]
      rfl
    have hreport : started.reports s.sent = some ⟨l, none⟩ := State.reports_self ..
    obtain ⟨ls, s', hrun, hagent, hreport', hholds⟩ :=
      handle_alone uidOf maxLaunchCount clearHistoryLaunch command (s := started) h hnone hidle hreport
    let ret := (Launches.onLaunchProcess maxLaunchCount l.uid d).1
    let settled := { s' with agent := notifyProcessLaunch ret l s'.agent }.setReport s.sent none
    refine ⟨.start pid l.uid ⟨processName, some pkg, none, none⟩ 1 :: (ls ++ [.settle s.sent]),
      settled, ?_, ?_, hholds⟩
    · rw [run_cons, step, hstart, Option.bind_some, run_append, hrun]
      simp only [run_cons, run_nil, step, settle, hreport', Option.bind_some]
      rfl
    · exact congrArg (notifyProcessLaunch _ l) hagent

end Alone

end Albatross.LaunchProtocol
