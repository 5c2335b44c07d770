/-
  Albatross/LaunchesApart.lean
  ============================
  **Launches apart from the starts of their app** (`device.py`: `launch`,
  `on_launch_process`; `SystemServerInjectAgent.java`: `notifyProcessLaunch`).

  `served_apart`: the system server reports every start that the host has promised a record,
  in every interleaving in which no report of a uid is under way while the uid is being
  launched.  The answer -1 to a report that is under way would take out an app that has just
  been launched.

  An answer -1 is for a count at the maximum, and only a launch takes the count of a uid back;
  so while an answer is under way the uid has no promise to break.
-/
import Albatross.LaunchPromises

namespace Albatross.LaunchProtocol

open Registry Runs
open LaunchRaces (Host Handler)

/-! ### The host's handler -/

def handlerUid : Handler → Option Int
  | .idle => none
  | .found uid _ => some uid
  | .counted uid _ _ => some uid

/-- The handler is about the report that the host is handling, of that uid; numbers that are not
    sent yet name no report. -/
structure Handled (s : State) : Prop where
  fresh : ∀ i, s.sent ≤ i → s.reports i = none
  taken : ∀ h, s.handling = some h → h.report < s.sent
  same : ∀ h r, s.handling = some h → s.reports h.report = some r → r.launch.uid = h.uid
  busy : ∀ uid, handlerUid s.host.handler = some uid → ∃ i, s.handling = some ⟨i, uid, none⟩

section Handled

variable {uidOf : JavaString → Option Int} {maxLaunchCount : Nat} {clearHistoryLaunch : Bool}
  {command : Nat} {s s' : State} {l : Label} {uid : Int}

theorem handled_initial : Handled State.initial where
  fresh _ _ := rfl
  taken _ h := by cases h
  same _ _ h := by cases h
  busy _ h := by cases h

theorem Handled.congr (h : Handled s) (hreports : s'.reports = s.reports) (hsent : s'.sent = s.sent)
    (hhandling : s'.handling = s.handling) (hhandler : s'.host.handler = s.host.handler) :
    Handled s' := by
  obtain ⟨hfresh, htaken, hsame, hbusy⟩ := h
  constructor
  · rwa [hreports, hsent]
  · rwa [hhandling, hsent]
  · rwa [hhandling, hreports]
  · rwa [hhandling, hhandler]

/-- A report takes the place of another of the same launch, or leaves it empty. -/
theorem Handled.setReport (h : Handled s) {i : Nat} {r₀ : Option Report}
    (hr : ∀ r, r₀ = some r → ∃ r', s.reports i = some r' ∧ r'.launch = r.launch) :
    Handled (s.setReport i r₀) where
  fresh j hj := by
    by_cases heq : j = i
    · subst heq
      rw [State.reports_self]
      refine Option.eq_none_iff_forall_ne_some.mpr fun r hsome => ?_
      obtain ⟨r', hr', -⟩ := hr r hsome
      cases (h.fresh j hj).symm.trans hr'
    · rw [State.reports_of_ne _ _ heq]
      exact h.fresh j hj
  taken := h.taken
  same handling r hhandling hreport := by
    by_cases heq : handling.report = i
    · subst heq
      obtain ⟨r', hr', hlaunch⟩ := hr r ((State.reports_self ..).symm.trans hreport)
      rw [← hlaunch]
      exact h.same handling r' hhandling hr'
    · exact h.same handling r hhandling ((State.reports_of_ne _ _ heq).symm.trans hreport)
  busy := h.busy

theorem Handled.replied (h : Handled s) (ret : Int) (hidle : s'.host.handler = .idle)
    (hreports : s'.reports = s.reports) (hsent : s'.sent = s.sent)
    (hhandling : s'.handling = s.handling.map fun h => { h with ret := some ret }) :
    Handled s' := by
  refine ⟨?_, fun handling hsome => ?_, fun handling r hsome hr => ?_, fun uid hbusy => ?_⟩
  · rw [hreports, hsent]
    exact h.fresh
  · obtain ⟨before, hbefore, rfl⟩ := Option.map_eq_some_iff.mp (hhandling.symm.trans hsome)
    rw [hsent]
    exact h.taken before hbefore
  · obtain ⟨before, hbefore, rfl⟩ := Option.map_eq_some_iff.mp (hhandling.symm.trans hsome)
    rw [hreports] at hr
    exact h.same before r hbefore hr
  · rw [hidle] at hbusy
    cases hbusy

theorem Handled.done (h : Handled s) (hidle : s'.host.handler = .idle)
    (hreports : s'.reports = s.reports) (hsent : s'.sent = s.sent)
    (hhandling : s'.handling = none) : Handled s' where
  fresh := by
    rw [hreports, hsent]
    exact h.fresh
  taken handling hsome := by cases hhandling.symm.trans hsome
  same handling r hsome := by cases hhandling.symm.trans hsome
  busy uid hbusy := by
    rw [hidle] at hbusy
    cases hbusy

theorem handled_start (h : Handled s) (pid uid : Int) (r : ProcessRecord) (n : Nat) :
    Handled (start pid uid r n s) := by
  rcases start_cases (s := s) pid uid r n with hs | hs
  · rw [hs]
    exact h
  · rw [hs]
    refine ⟨fun i hi => ?_, fun handling hhandling => ?_, fun handling r' hhandling hr' => ?_,
      h.busy⟩
    · have hne : i ≠ s.sent := by
        rintro rfl
        exact absurd hi (Nat.not_succ_le_self _)
      exact (State.reports_of_ne _ _ hne).trans (h.fresh i (Nat.le_of_succ_le hi))
    · exact Nat.lt_succ_of_lt (h.taken handling hhandling)
    · have hne : handling.report ≠ s.sent := (h.taken handling hhandling).ne
      exact h.same handling r' hhandling ((State.reports_of_ne _ _ hne).symm.trans hr')

theorem handled_step (h : Handled s)
    (hstep : step uidOf maxLaunchCount clearHistoryLaunch command s l = some s') : Handled s' := by
  cases l with
  | launch t pkg record =>
    obtain ⟨-, -, rfl⟩ := launch_cases hstep
    refine h.congr rfl rfl rfl ?_
    cases clearHistoryLaunch <;> rfl
  | setInterceptApp t =>
    obtain ⟨pkg, record, -, rfl⟩ := setInterceptApp_cases hstep
    exact h.congr rfl rfl rfl rfl
  | abandon t =>
    obtain rfl := abandon_cases hstep
    exact h.congr rfl rfl rfl rfl
  | file t =>
    obtain ⟨_, _, _, -, hfile, rfl⟩ := file_cases hstep
    exact h.congr rfl rfl rfl (handler_file hfile)
  | reset t =>
    obtain ⟨host, hreset, rfl⟩ := reset_cases hstep
    exact h.congr rfl rfl rfl (handler_reset hreset)
  | start pid uid r n =>
    obtain rfl := Option.some.inj hstep
    exact handled_start h pid uid r n
  | handle i =>
    obtain ⟨l, hnone, hreport, rfl | ⟨record, -, rfl⟩⟩ := handle_cases hstep
    · exact h.setReport fun r hr => by cases hr; exact ⟨_, hreport, rfl⟩
    · refine ⟨h.fresh, ?_, ?_, ?_⟩
      · rintro _ ⟨⟩
        by_contra hge
        cases (h.fresh i (Nat.le_of_not_lt hge)).symm.trans hreport
      · rintro _ r ⟨⟩ hr
        cases hreport.symm.trans hr
        rfl
      · rintro _ ⟨⟩
        exact ⟨i, rfl⟩
  | read =>
    obtain ⟨uid, record, hfound, ⟨rfl, -⟩ | ⟨count, rfl, -⟩⟩ := read_cases hstep
    · exact h.replied _ rfl rfl rfl rfl
    · refine ⟨h.fresh, h.taken, h.same, ?_⟩
      rintro _ ⟨⟩
      exact h.busy uid (by rw [hfound]; rfl)
  | write =>
    obtain ⟨_, _, _, handling, host, -, hhandling, hwrite, rfl⟩ := write_cases hstep
    exact h.replied _ (handler_write hwrite) rfl rfl (by rw [hhandling]; rfl)
  | answer raised delivered =>
    obtain ⟨i, uid, ret, hhandling, hs⟩ := answer_cases hstep
    have hidle : s.host.handler = .idle := by
      cases hhandler : s.host.handler with
      | idle => rfl
      | found uid' record =>
        obtain ⟨_, hnone⟩ := h.busy uid' (by rw [hhandler]; rfl)
        cases hhandling.symm.trans hnone
      | counted uid' record count =>
        obtain ⟨_, hnone⟩ := h.busy uid' (by rw [hhandler]; rfl)
        cases hhandling.symm.trans hnone
    rcases hs with rfl | ⟨sent, -, rfl⟩
    · exact h.done hidle rfl rfl rfl
    · have hanswered : Handled (s.setReport i
          ((s.reports i).map fun r => { r with answer := some sent })) := by
        refine h.setReport fun r hr => ?_
        obtain ⟨r', hreport, rfl⟩ := Option.map_eq_some_iff.mp hr
        exact ⟨r', hreport, rfl⟩
      exact hanswered.done hidle rfl rfl rfl
  | settle i =>
    obtain ⟨_, _, -, rfl⟩ := settle_cases hstep
    have hsettled : Handled (s.setReport i none) := h.setReport fun r hr => by cases hr
    exact hsettled.congr rfl rfl rfl rfl
  | giveUp i =>
    obtain rfl := giveUp_cases hstep
    exact h.setReport fun r hr => by cases hr
  | other op =>
    obtain rfl := Option.some.inj hstep
    exact h.congr rfl rfl rfl rfl

/-- **A refusal is for a count at the maximum**: it is new only by the writing of that count. -/
theorem refused_step (h : Handled s)
    (hstep : step uidOf maxLaunchCount clearHistoryLaunch command s l = some s') (hr : Refused s' uid) :
    Refused s uid ∨ ¬ Promised maxLaunchCount s'.host uid := by
  cases l with
  | launch t pkg record =>
    obtain ⟨-, -, rfl⟩ := launch_cases hstep
    exact Or.inl hr
  | setInterceptApp t =>
    obtain ⟨pkg, record, -, rfl⟩ := setInterceptApp_cases hstep
    exact Or.inl hr
  | abandon t =>
    obtain rfl := abandon_cases hstep
    exact Or.inl hr
  | file t =>
    obtain ⟨_, _, _, -, -, rfl⟩ := file_cases hstep
    exact Or.inl hr
  | reset t =>
    obtain ⟨host, -, rfl⟩ := reset_cases hstep
    exact Or.inl hr
  | start pid uid' r n =>
    obtain rfl := Option.some.inj hstep
    rcases start_cases (s := s) pid uid' r n with hs | hs
    · rw [hs] at hr
      exact Or.inl hr
    · rw [hs] at hr
      obtain ⟨i, r', hi, hlaunch, hrefused⟩ := hr
      by_cases hsent : i = s.sent
      · subst hsent
        cases (State.reports_self ..).symm.trans hi
        rcases hrefused with hanswer | hhandling
        · cases hanswer
        · exact absurd (h.taken _ hhandling) (Nat.lt_irrefl _)
      · exact Or.inl ⟨i, r', (State.reports_of_ne _ _ hsent).symm.trans hi, hlaunch, hrefused⟩
  | handle i =>
    obtain ⟨l, hnone, hreport, rfl | ⟨record, -, rfl⟩⟩ := handle_cases hstep
    · obtain ⟨j, r, hj, hlaunch, hrefused⟩ := hr
      by_cases heq : j = i
      · subst heq
        cases (State.reports_self ..).symm.trans hj
        rcases hrefused with hanswer | hhandling
        · exact absurd (Option.some.inj hanswer) (by decide)
        · cases hnone.symm.trans hhandling
      · exact Or.inl ⟨j, r, (State.reports_of_ne _ _ heq).symm.trans hj, hlaunch, hrefused⟩
    · obtain ⟨j, r, hj, hlaunch, hanswer | ⟨⟨⟩⟩⟩ := hr
      exact Or.inl ⟨j, r, hj, hlaunch, Or.inl hanswer⟩
  | read =>
    obtain ⟨_, _, -, ⟨rfl, -⟩ | ⟨count, rfl, -⟩⟩ := read_cases hstep
    · obtain ⟨j, r, hj, hlaunch, hanswer | hhandling⟩ := hr
      · exact Or.inl ⟨j, r, hj, hlaunch, Or.inl hanswer⟩
      · obtain ⟨_, -, hnew⟩ := Option.map_eq_some_iff.mp hhandling
        have hret := Option.some.inj (Handling.mk.inj hnew).2.2
        omega
    · exact Or.inl hr
  | write =>
    obtain ⟨uid', record, count, handling, host, hcounted, hhandling, hwrite, rfl⟩ :=
      write_cases hstep
    obtain ⟨j, r, hj, hlaunch, hanswer | hnew⟩ := hr
    · exact Or.inl ⟨j, r, hj, hlaunch, Or.inl hanswer⟩
    · refine Or.inr ?_
      obtain ⟨i, hbusy⟩ := h.busy uid' (by rw [hcounted]; rfl)
      cases hhandling.symm.trans hbusy
      have hret := Option.some.inj hnew
      by_cases hlt : count < maxLaunchCount
      · simp [hlt] at hret
      · obtain rfl : uid' = uid := (Handling.mk.inj hret).2.1
        exact not_promised_write hcounted (Nat.le_of_not_lt hlt) hwrite
  | answer raised delivered =>
    obtain ⟨i, uid', ret, hhandling, rfl | ⟨sent, hsent, rfl⟩⟩ := answer_cases hstep
    · obtain ⟨j, r, hj, hlaunch, hanswer | ⟨⟨⟩⟩⟩ := hr
      exact Or.inl ⟨j, r, hj, hlaunch, Or.inl hanswer⟩
    · obtain ⟨j, r, hj, hlaunch, hanswer | ⟨⟨⟩⟩⟩ := hr
      by_cases heq : j = i
      · subst heq
        obtain ⟨r', hreport, rfl⟩ :=
          Option.map_eq_some_iff.mp ((State.reports_self ..).symm.trans hj)
        obtain rfl : ret = -1 := hsent (Option.some.inj hanswer)
        have hsame : r'.launch.uid = uid' := h.same _ r' hhandling hreport
        obtain rfl : uid' = uid := hsame.symm.trans hlaunch
        exact Or.inl ⟨j, r', hreport, hlaunch, Or.inr hhandling⟩
      · exact Or.inl ⟨j, r, (State.reports_of_ne _ _ heq).symm.trans hj, hlaunch, Or.inl hanswer⟩
  | settle i =>
    obtain ⟨_, _, -, rfl⟩ := settle_cases hstep
    exact Or.inl (Refused.of_setReport hr)
  | giveUp i =>
    obtain rfl := giveUp_cases hstep
    exact Or.inl hr.of_setReport
  | other op =>
    obtain rfl := Option.some.inj hstep
    exact Or.inl hr

end Handled

/-! ### Any interleaving -/

section Apart

variable {uidOf : JavaString → Option Int} {maxLaunchCount : Nat} {clearHistoryLaunch : Bool}
  {command : Nat} {s s' : State} {l : Label} {uid : Int}

variable (uidOf maxLaunchCount clearHistoryLaunch) in
/-- No report of a uid is under way while it is being launched, a launch clears no other
    uid's entry, and no other client takes a uid out. -/
def Label.Apart (s : State) : Label → Prop
  | .setInterceptApp t => ∀ pkg record uid, s.requests t = some (.asking pkg record) →
      uid > SYSTEM_UID →
        (uidOf pkg = some uid → ¬ Reported s uid) ∧
        (clearHistoryLaunch = true → uidOf pkg ≠ some uid →
          ¬ Promised maxLaunchCount s.host uid ∧ ∀ t', ¬ Launching s t' uid)
  | .start _ uid _ _ => uid > SYSTEM_UID → ∀ t, ¬ Launching s t uid
  | .other op => ∀ uid > SYSTEM_UID, Intercepted s.agent uid →
      Intercepted (s.agent.apply uidOf op) uid
  | _ => True

/-- A uid that is being launched is intercepted and not reported, and one that is refused has no
    promise. -/
structure Inv (maxLaunchCount : Nat) (s : State) : Prop where
  counted : Counted s.host
  handled : Handled s
  intercepted : ∀ t, ∀ uid > SYSTEM_UID, Launching s t uid → Intercepted s.agent uid
  alone : ∀ t, ∀ uid > SYSTEM_UID, Launching s t uid → ¬ Reported s uid
  refused : ∀ uid > SYSTEM_UID, Refused s uid → ¬ Promised maxLaunchCount s.host uid
  served : Served maxLaunchCount s

theorem inv_initial : Inv maxLaunchCount State.initial where
  counted _ _ _ h := by cases h
  handled := handled_initial
  intercepted t uid _ h := by
    rcases h with ⟨_, h⟩ | h <;> cases h
  alone t uid _ h := by
    rcases h with ⟨_, h⟩ | h <;> cases h
  refused uid _ h := by
    obtain ⟨_, _, h, -⟩ := h
    cases h
  served uid _ h := by
    have hnone := h.1
    simp [State.initial, Host.initial] at hnone

theorem uidOf_of_setInterceptApp {agent : Agent} {pkg : JavaString} {clear : Bool}
    (huid : uid > SYSTEM_UID)
    (h : (Registry.setInterceptApp uidOf (some pkg) clear agent).1 = uid) :
    uidOf pkg = some uid := by
  have hzero : (0 : Int) ≠ uid := fun h => absurd huid (by rw [← h]; decide)
  unfold Registry.setInterceptApp at h
  dsimp only at h
  split at h
  · exact absurd h hzero
  · split at h
    · exact absurd h hzero
    · next appId happ =>
      rw [happ]
      split at h <;> exact congrArg some h

theorem intercepted_inv (hinv : Inv maxLaunchCount s)
    (hstep : step uidOf maxLaunchCount clearHistoryLaunch command s l = some s')
    (hapart : l.Apart uidOf maxLaunchCount clearHistoryLaunch s) {t : Nat} (huid : uid > SYSTEM_UID)
    (ht : Launching s' t uid) : Intercepted s'.agent uid := by
  rcases launching_step hstep ht with hold | ⟨pkg, record, rfl, hrequest, happ⟩
  · rcases intercepted_step huid hstep (hinv.intercepted t uid huid hold) with
      hi | hrefused | ⟨t', pkg, record, rfl, hrequest, hclear, hne⟩ | ⟨op, rfl, hop⟩
    · exact hi
    · exact absurd hrefused.reported (hinv.alone t uid huid hold)
    · exact absurd hold (((hapart pkg record uid hrequest huid).2 hclear hne).2 t)
    · exact absurd (hapart uid huid (hinv.intercepted t uid huid hold)) hop
  · obtain ⟨pkg', record', hrequest', rfl⟩ := setInterceptApp_cases hstep
    cases hrequest.symm.trans hrequest'
    have hown := uidOf_of_setInterceptApp huid happ
    exact (intercepted_setInterceptApp huid pkg _).mpr (Or.inr (Or.inr (Or.inl hown)))

theorem alone_inv (hinv : Inv maxLaunchCount s)
    (hstep : step uidOf maxLaunchCount clearHistoryLaunch command s l = some s')
    (hapart : l.Apart uidOf maxLaunchCount clearHistoryLaunch s) {t : Nat} (huid : uid > SYSTEM_UID)
    (ht : Launching s' t uid) : ¬ Reported s' uid := by
  intro hreported
  rcases launching_step hstep ht with hold | ⟨pkg, record, rfl, hrequest, happ⟩
  · rcases reported_step hstep hreported with hr | ⟨pid, r, n, rfl⟩
    · exact hinv.alone t uid huid hold hr
    · exact hapart huid t hold
  · have hown := uidOf_of_setInterceptApp huid happ
    rcases reported_step hstep hreported with hr | ⟨pid, r, n, hl⟩
    · exact (hapart pkg record uid hrequest huid).1 hown hr
    · cases hl

theorem refused_inv (hinv : Inv maxLaunchCount s)
    (hstep : step uidOf maxLaunchCount clearHistoryLaunch command s l = some s') (huid : uid > SYSTEM_UID)
    (hr : Refused s' uid) : ¬ Promised maxLaunchCount s'.host uid := by
  rcases refused_step hinv.handled hstep hr with hold | hnot
  · intro hpromised
    rcases promised_step hinv.counted hstep hpromised with hp | ⟨-, t, ht⟩
    · exact hinv.refused uid huid hold hp
    · exact hinv.alone t uid huid ht hold.reported
  · exact hnot

theorem served_inv (hinv : Inv maxLaunchCount s)
    (hstep : step uidOf maxLaunchCount clearHistoryLaunch command s l = some s')
    (hapart : l.Apart uidOf maxLaunchCount clearHistoryLaunch s) :
    Served maxLaunchCount s' := by
  intro uid huid hpromised
  rcases promised_step hinv.counted hstep hpromised with hp | ⟨hagent, t, ht⟩
  · have hserved := hinv.served uid huid hp
    rcases intercepted_step huid hstep hserved with
      hi | hrefused | ⟨t, pkg, record, rfl, hrequest, hclear, hne⟩ | ⟨op, rfl, hop⟩
    · exact hi
    · exact absurd hp (hinv.refused uid huid hrefused)
    · exact absurd hp ((hapart pkg record uid hrequest huid).2 hclear hne).1
    · exact absurd (hapart uid huid hserved) hop
  · rw [hagent]
    exact hinv.intercepted t uid huid ht

theorem inv_step (hinv : Inv maxLaunchCount s)
    (hstep : step uidOf maxLaunchCount clearHistoryLaunch command s l = some s')
    (hapart : l.Apart uidOf maxLaunchCount clearHistoryLaunch s) : Inv maxLaunchCount s' where
  counted := step_counted hinv.counted hstep
  handled := handled_step hinv.handled hstep
  intercepted _ _ huid ht := intercepted_inv hinv hstep hapart huid ht
  alone _ _ huid ht := alone_inv hinv hstep hapart huid ht
  refused _ huid hr := refused_inv hinv hstep huid hr
  served := served_inv hinv hstep hapart

/-- **A start is reported when the host has a plugin for it.**  In every interleaving in which no
    report of a uid is under way while the uid is being launched, a start under a uid above
    `SYSTEM_UID` with a record and a count below the maximum is reported. -/
theorem served_apart {ls : List Label}
    (hrun : run (step uidOf maxLaunchCount clearHistoryLaunch command) .initial ls = some s)
    (hapart : ∀ a k b, Takes (step uidOf maxLaunchCount clearHistoryLaunch command) .initial ls a k b →
      k.Apart uidOf maxLaunchCount clearHistoryLaunch a)
    (huid : uid > SYSTEM_UID) (hpromised : Promised maxLaunchCount s.host uid) {n : Nat}
    (hn : 0 < n) (pid : Int) (r : ProcessRecord) :
    interceptCheck s.agent n pid uid r = some (launchOf pid uid r) := by
  have hinv : Inv maxLaunchCount s :=
    run_takes inv_initial (fun a k b ht ha => inv_step ha ht.one (hapart a k b ht)) hrun
  rw [Launches.interceptCheck_of_gt huid hn]
  exact if_pos (hinv.served uid huid hpromised)

end Apart

def oneLaunch : List Label :=
  [.launch 0 ['a', '.', 'b'] (Launches.plugin "B"), .setInterceptApp 0, .file 0, .reset 0]

/-- The app starts, and its report is sent, handled and answered. -/
def oneStart : List Label :=
  [.start 7 10050 Launches.thirdStart 1, .handle 0, .read, .write, .answer false true, .settle 0]

theorem apart_oneStart (a : State) (k : Label) (b : State)
    (h : Takes (step (fun _ => some 10050) 2 false 5) .initial (oneLaunch ++ oneStart) a k b) :
    k.Apart (fun _ => some 10050) 2 false a := by
  revert a k b
  refine forall_takes_cons.mpr fun s₁ h₁ => ⟨trivial, ?_⟩
  obtain rfl := Option.some.inj h₁
  refine forall_takes_cons.mpr fun s₂ h₂ => ⟨?_, ?_⟩
  · intro pkg record uid _ _
    refine ⟨fun _ hreported => ?_, fun hclear => ?_⟩
    · obtain ⟨_, _, hi, -⟩ := hreported
      cases hi
    · cases hclear
  refine forall_takes_cons.mpr fun s₃ h₃ => ⟨trivial, ?_⟩
  refine forall_takes_cons.mpr fun s₄ h₄ => ⟨trivial, ?_⟩
  obtain rfl := Option.some.inj h₂
  obtain rfl := Option.some.inj h₃
  obtain rfl := Option.some.inj h₄
  refine forall_takes_cons.mpr fun s₅ h₅ => ⟨fun _ t hlaunching => ?_, ?_⟩
  · -- the one launch has filed its record and is over
    rcases t with _ | t
    · rcases hlaunching with ⟨_, h⟩ | h <;> cases h
    · rcases hlaunching with ⟨_, h⟩ | h <;> cases h
  refine forall_takes_cons.mpr fun s₆ h₆ => ⟨trivial, ?_⟩
  refine forall_takes_cons.mpr fun s₇ h₇ => ⟨trivial, ?_⟩
  refine forall_takes_cons.mpr fun s₈ h₈ => ⟨trivial, ?_⟩
  refine forall_takes_cons.mpr fun s₉ h₉ => ⟨trivial, ?_⟩
  refine forall_takes_cons.mpr fun s₁₀ h₁₀ => ⟨trivial, ?_⟩
  exact fun s l s' h => absurd h not_takes_nil

theorem served_apart_oneStart :
    ∃ s, run (step (fun _ => some 10050) 2 false 5) .initial (oneLaunch ++ oneStart) = some s ∧
      s.host.appLaunchCount.lookup 10050 = some 1 ∧
        interceptCheck s.agent 1 8 10050 Launches.thirdStart =
          some (launchOf 8 10050 Launches.thirdStart) := by
  refine ⟨_, rfl, rfl, ?_⟩
  exact served_apart rfl apart_oneStart (by decide) ⟨rfl, 1, rfl, by decide⟩ (by decide) _ _

/-- Two starts are reported, the second is answered with -1, and the answer arrives when the app has
    been launched again: the app has its record and a new count, and is not intercepted. -/
example : (run (step (fun _ => some 10050) 1 false 5) .initial
    (oneLaunch ++ [.start 7 10050 Launches.thirdStart 1, .start 8 10050 Launches.thirdStart 1,
      .handle 0, .read, .write, .answer false true, .settle 0,
      .handle 1, .read, .write, .answer false true] ++ oneLaunch ++ [.settle 1])).map
        (fun s => (s.host.appLaunchCount.lookup 10050, s.agent.interceptApps.lookup 10050)) =
      some (some 0, none) :=
  rfl

end Albatross.LaunchProtocol
