/-
  Albatross/LaunchPromises.lean
  =============================
  **What a launch promises** (`device.py`: `launch`, `on_launch_process`).

  The host promises a record to a uid while its count is below the maximum, and keeps the
  promise only if the system server intercepts the uid.  This file says what one step of the
  two does to the promises, to the registry, and to the launches and reports that are under
  way.
-/
import Albatross.LaunchProtocol

namespace Albatross.LaunchProtocol

open Registry
open LaunchRaces (Host)
open Launches (PluginRecord)

/-! ### Promises -/

section Promises

variable (maxLaunchCount : Nat)

/-- A start under the uid would be given a plugin. -/
def Promised (host : Host) (uid : Int) : Prop :=
  (host.processLaunchCallback.lookup uid).isSome ∧
    ∃ n, host.appLaunchCount.lookup uid = some n ∧ n < maxLaunchCount

def Intercepted (agent : Agent) (uid : Int) : Prop := (shouldInterceptUid agent uid).isSome

/-- What the host has promised above `SYSTEM_UID`, the system server intercepts. -/
def Served (s : State) : Prop :=
  ∀ uid > SYSTEM_UID, Promised maxLaunchCount s.host uid → Intercepted s.agent uid

end Promises

section Tables

variable {maxLaunchCount : Nat} {host host' : Host} {agent : Agent} {uid : Int}

theorem Promised.congr (hcallback : host'.processLaunchCallback = host.processLaunchCallback)
    (hcount : host'.appLaunchCount = host.appLaunchCount) :
    Promised maxLaunchCount host' uid ↔ Promised maxLaunchCount host uid := by
  rw [Promised, Promised, hcallback, hcount]

theorem promised_file {appId : Int} {record : PluginRecord} {t : Nat}
    (h : LaunchRaces.file t appId record host = some host') :
    Promised maxLaunchCount host' uid ↔ Promised maxLaunchCount host uid ∨ uid = appId ∧
      ∃ n, host.appLaunchCount.lookup appId = some n ∧ n < maxLaunchCount := by
  unfold LaunchRaces.file at h
  split at h
  · cases h
    by_cases huid : uid = appId
    · subst huid
      simp [Promised]
    · simp [Promised, huid, AList.lookup_insert_ne huid]
  · cases h

theorem promised_reset {appId : Int} {t : Nat} (ht : host.launching t = some appId)
    (h : LaunchRaces.reset t host = some host') :
    Promised maxLaunchCount host' uid ↔ uid ≠ appId ∧ Promised maxLaunchCount host uid ∨
      uid = appId ∧ (host.processLaunchCallback.lookup appId).isSome ∧ 0 < maxLaunchCount := by
  simp only [LaunchRaces.reset, ht] at h
  cases h
  by_cases huid : uid = appId
  · subst huid
    simp [Promised, Host.store_count, Host.store_callback]
  · simp [Promised, Host.store_count, Host.store_callback, huid, AList.lookup_insert_ne huid]

theorem launching_file {appId : Int} {record : PluginRecord} {t t' : Nat}
    (h : LaunchRaces.file t appId record host = some host') (ht : host'.launching t' = some uid) :
    host.launching t' = some uid ∨ t' = t ∧ appId = uid := by
  unfold LaunchRaces.file at h
  split at h
  · cases h
    by_cases heq : t' = t
    · subst heq
      have hself : Function.update host.launching t' (some appId) t' = some uid := ht
      rw [Function.update_self] at hself
      exact Or.inr ⟨rfl, Option.some.inj hself⟩
    · exact Or.inl ((Function.update_of_ne heq ..).symm.trans ht)
  · cases h

theorem launching_of_reset {t : Nat} (h : LaunchRaces.reset t host = some host') :
    ∃ appId, host.launching t = some appId := by
  unfold LaunchRaces.reset at h
  split at h
  · cases h
  · next appId hlaunching => exact ⟨appId, hlaunching⟩

theorem launching_reset {t t' : Nat} (h : LaunchRaces.reset t host = some host')
    (ht : host'.launching t' = some uid) : host.launching t' = some uid := by
  unfold LaunchRaces.reset at h
  split at h
  · cases h
  · cases h
    by_cases heq : t' = t
    · subst heq
      cases (Function.update_self ..).symm.trans ht
    · exact (Function.update_of_ne heq ..).symm.trans ht

theorem launching_write (h : LaunchRaces.write host = some host') :
    host'.launching = host.launching := by
  unfold LaunchRaces.write at h
  split at h
  · cases h
    rfl
  · cases h

theorem handler_file {appId : Int} {record : PluginRecord} {t : Nat}
    (h : LaunchRaces.file t appId record host = some host') : host'.handler = host.handler := by
  unfold LaunchRaces.file at h
  split at h
  · cases h
    rfl
  · cases h

theorem handler_reset {t : Nat} (h : LaunchRaces.reset t host = some host') :
    host'.handler = host.handler := by
  unfold LaunchRaces.reset at h
  split at h
  · cases h
  · cases h
    rfl

theorem handler_write (h : LaunchRaces.write host = some host') : host'.handler = .idle := by
  unfold LaunchRaces.write at h
  split at h
  · cases h
    rfl
  · cases h

/-- The host has read a count that is not below the one in the table. -/
def Counted (host : Host) : Prop := ∀ uid record count, host.handler = .counted uid record count →
  ∃ n, host.appLaunchCount.lookup uid = some n ∧ n ≤ count

theorem promised_write (hcounted : Counted host) (h : LaunchRaces.write host = some host')
    (hpromised : Promised maxLaunchCount host' uid) : Promised maxLaunchCount host uid := by
  unfold LaunchRaces.write at h
  split at h
  · next appId record count hhandler =>
    cases h
    obtain ⟨hrecord, n, hn, hlt⟩ := hpromised
    refine ⟨hrecord, ?_⟩
    by_cases huid : uid = appId
    · subst huid
      obtain ⟨m, hm, hle⟩ := hcounted uid record count hhandler
      have hnew : count + 1 = n := by simpa [Host.store_count] using hn
      exact ⟨m, hm, by omega⟩
    · exact ⟨n, (AList.lookup_insert_ne huid).symm.trans hn, hlt⟩
  · cases h

theorem not_promised_write {record : PluginRecord} {count : Nat}
    (hcounted : host.handler = .counted uid record count) (hmax : maxLaunchCount ≤ count)
    (h : LaunchRaces.write host = some host') : ¬ Promised maxLaunchCount host' uid := by
  simp only [LaunchRaces.write, hcounted] at h
  cases h
  rintro ⟨-, n, hn, hlt⟩
  have hnew : count + 1 = n := by simpa [Host.store_count] using hn
  omega

theorem counted_step (hcounted : Counted host) {l : LaunchRaces.Label}
    (h : LaunchRaces.step host l = some host') : Counted host' := by
  cases l with
  | clear =>
    cases h
    exact hcounted
  | file t appId record =>
    simp only [LaunchRaces.step, LaunchRaces.file] at h
    split at h
    · cases h
      exact hcounted
    · cases h
  | reset t =>
    simp only [LaunchRaces.step, LaunchRaces.reset] at h
    split at h
    · cases h
    · next appId _ =>
      cases h
      intro u record count hhandler
      obtain ⟨n, hn, hle⟩ := hcounted u record count hhandler
      by_cases hu : u = appId
      · subst hu
        exact ⟨0, AList.lookup_insert _, Nat.zero_le _⟩
      · exact ⟨n, (AList.lookup_insert_ne hu).trans hn, hle⟩
  | lookup u =>
    simp only [LaunchRaces.step, LaunchRaces.lookup] at h
    split at h
    · obtain rfl := Option.some.inj h
      split
      · exact hcounted
      · rintro _ _ _ ⟨⟩
    · cases h
  | read =>
    simp only [LaunchRaces.step, LaunchRaces.read] at h
    split at h
    · obtain rfl := Option.some.inj h
      split
      · rintro _ _ _ ⟨⟩
      · next count hcount =>
        rintro _ _ _ ⟨⟩
        exact ⟨count, hcount, Nat.le_refl _⟩
    · cases h
  | write =>
    simp only [LaunchRaces.step, LaunchRaces.write] at h
    split at h
    · cases h
      rintro _ _ _ ⟨⟩
    · cases h

end Tables

section Registry

variable {uidOf : JavaString → Option Int} {agent : Agent} {uid : Int}

theorem intercepted_iff : Intercepted agent uid ↔
    agent.interceptAll = true ∨ (agent.interceptApps.lookup uid).isSome :=
  Launches.isSome_shouldInterceptUid

theorem intercepted_notify (huid : uid > SYSTEM_UID) (ret : Int) (l : Launch) :
    Intercepted (notifyProcessLaunch ret l agent) uid ↔ Intercepted agent uid ∧
      (ret = -1 → l.uid = uid → agent.interceptAll = true) := by
  rw [intercepted_iff, intercepted_iff, Launches.interceptAll_notifyProcessLaunch,
    Launches.isSome_notifyProcessLaunch huid]
  tauto

theorem intercepted_setInterceptApp (huid : uid > SYSTEM_UID) (pkg : JavaString) (clear : Bool) :
    Intercepted (Registry.setInterceptApp uidOf (some pkg) clear agent).2 uid ↔
      pkg = ['a', 'l', 'l'] ∨ agent.interceptAll = true ∨ uidOf pkg = some uid ∨
        clear = false ∧ Intercepted agent uid := by
  have hzero : (0 : Int) ≠ uid := fun h => absurd huid (by rw [← h]; decide)
  rw [intercepted_iff, intercepted_iff, Launches.isSome_setInterceptApp huid]
  unfold Registry.setInterceptApp
  dsimp only
  by_cases hall : pkg = ['a', 'l', 'l']
  · simp [hall]
  · rw [if_neg hall]
    cases happ : uidOf pkg with
    | none =>
      simp only [hall, hzero, false_or]
      tauto
    | some appId =>
      simp only [hall, Option.some.injEq, false_or]
      split
      · tauto
      · tauto

end Registry

/-! ### What is under way -/

/-- The uid is between `set_intercept_app` and the reset of its count. -/
def Launching (s : State) (t : Nat) (uid : Int) : Prop :=
  (∃ record, s.requests t = some (.answered uid record)) ∨ s.host.launching t = some uid

def Reported (s : State) (uid : Int) : Prop :=
  ∃ i r, s.reports i = some r ∧ r.launch.uid = uid

/-- A report is answered with -1, or will be. -/
def Refused (s : State) (uid : Int) : Prop :=
  ∃ i r, s.reports i = some r ∧ r.launch.uid = uid ∧
    (r.answer = some (-1) ∨ s.handling = some ⟨i, uid, some (-1)⟩)

theorem Refused.reported {s : State} {uid : Int} (h : Refused s uid) : Reported s uid := by
  obtain ⟨i, r, hr, huid, -⟩ := h
  exact ⟨i, r, hr, huid⟩

section UnderWay

variable {s : State} {t t₀ i₀ : Nat} {q : Option Request} {r₀ : Option Report} {uid : Int}

theorem Launching.of_setRequest (hq : ∀ record, q ≠ some (.answered uid record))
    (h : Launching (s.setRequest t₀ q) t uid) : Launching s t uid := by
  rcases h with ⟨record, hrecord⟩ | hlaunching
  · by_cases ht : t = t₀
    · subst ht
      exact absurd ((s.requests_self t q).symm.trans hrecord) (hq record)
    · exact Or.inl ⟨record, (s.requests_of_ne q ht).symm.trans hrecord⟩
  · exact Or.inr hlaunching

/-- A report takes the place of another of the same launch, or leaves it empty. -/
theorem Reported.of_setReport
    (hr : ∀ r, r₀ = some r → ∃ r', s.reports i₀ = some r' ∧ r'.launch = r.launch)
    (h : Reported (s.setReport i₀ r₀) uid) : Reported s uid := by
  obtain ⟨i, r, hi, huid⟩ := h
  by_cases heq : i = i₀
  · subst heq
    obtain ⟨r', hr', hlaunch⟩ := hr r ((s.reports_self i r₀).symm.trans hi)
    exact ⟨i, r', hr', hlaunch ▸ huid⟩
  · exact ⟨i, r, (s.reports_of_ne r₀ heq).symm.trans hi, huid⟩

theorem Refused.of_setReport (h : Refused (s.setReport i₀ none) uid) : Refused s uid := by
  obtain ⟨i, r, hi, huid, hrefused⟩ := h
  by_cases heq : i = i₀
  · subst heq
    cases (s.reports_self i none).symm.trans hi
  · exact ⟨i, r, (s.reports_of_ne none heq).symm.trans hi, huid, hrefused⟩

end UnderWay

/-! ### What one step does -/

section Step

variable {uidOf : JavaString → Option Int} {maxLaunchCount : Nat} {clearHistoryLaunch : Bool}
  {command : Nat} {s s' : State} {l : Label} {uid : Int}

/-- The host's part of a step is nothing, or a step of `LaunchRaces`. -/
theorem host_step (h : step uidOf maxLaunchCount clearHistoryLaunch command s l = some s') :
    s'.host = s.host ∨ ∃ k, LaunchRaces.step s.host k = some s'.host := by
  cases l with
  | launch t pkg record =>
    obtain ⟨-, -, rfl⟩ := launch_cases h
    cases clearHistoryLaunch with
    | false => exact Or.inl rfl
    | true => exact Or.inr ⟨.clear, rfl⟩
  | setInterceptApp t =>
    obtain ⟨pkg, record, -, rfl⟩ := setInterceptApp_cases h
    exact Or.inl rfl
  | abandon t =>
    obtain rfl := abandon_cases h
    exact Or.inl rfl
  | file t =>
    obtain ⟨appId, record, host, -, hfile, rfl⟩ := file_cases h
    exact Or.inr ⟨.file t appId record, hfile⟩
  | reset t =>
    obtain ⟨host, hreset, rfl⟩ := reset_cases h
    exact Or.inr ⟨.reset t, hreset⟩
  | start pid uid r n =>
    obtain rfl := Option.some.inj h
    rcases start_cases (s := s) pid uid r n with hs | hs <;> rw [hs] <;> exact Or.inl rfl
  | handle i =>
    obtain ⟨l, -, -, rfl | ⟨record, hlookup, rfl⟩⟩ := handle_cases h
    · exact Or.inl rfl
    · exact Or.inr ⟨.lookup l.uid, hlookup⟩
  | read =>
    obtain ⟨_, _, -, ⟨rfl, hread⟩ | ⟨count, rfl, hread⟩⟩ := read_cases h
    · exact Or.inr ⟨.read, hread⟩
    · exact Or.inr ⟨.read, hread⟩
  | write =>
    obtain ⟨_, _, _, _, host, -, -, hwrite, rfl⟩ := write_cases h
    exact Or.inr ⟨.write, hwrite⟩
  | answer raised delivered =>
    obtain ⟨_, _, _, -, rfl | ⟨_, -, rfl⟩⟩ := answer_cases h
    · exact Or.inl rfl
    · exact Or.inl rfl
  | settle i =>
    obtain ⟨_, _, -, rfl⟩ := settle_cases h
    exact Or.inl rfl
  | giveUp i =>
    obtain rfl := giveUp_cases h
    exact Or.inl rfl
  | other op =>
    obtain rfl := Option.some.inj h
    exact Or.inl rfl

theorem step_counted (hcounted : Counted s.host)
    (h : step uidOf maxLaunchCount clearHistoryLaunch command s l = some s') : Counted s'.host := by
  rcases host_step h with hsame | ⟨k, hk⟩
  · rw [hsame]
    exact hcounted
  · exact counted_step hcounted hk

theorem launching_step {t : Nat}
    (h : step uidOf maxLaunchCount clearHistoryLaunch command s l = some s') (ht : Launching s' t uid) :
    Launching s t uid ∨ ∃ pkg record, l = .setInterceptApp t ∧
      s.requests t = some (.asking pkg record) ∧
        (Registry.setInterceptApp uidOf (some pkg) clearHistoryLaunch s.agent).1 = uid := by
  cases l with
  | launch t₀ pkg record =>
    obtain ⟨-, -, rfl⟩ := launch_cases h
    have hcleared := Launching.of_setRequest (fun _ hq => by cases hq) ht
    cases clearHistoryLaunch with
    | false => exact Or.inl hcleared
    | true => exact Or.inl hcleared
  | setInterceptApp t₀ =>
    obtain ⟨pkg, record, hrequest, rfl⟩ := setInterceptApp_cases h
    rcases ht with ⟨record', hrecord⟩ | hlaunching
    · by_cases heq : t = t₀
      · subst heq
        cases (State.requests_self ..).symm.trans hrecord
        exact Or.inr ⟨pkg, record, rfl, hrequest, rfl⟩
      · exact Or.inl (Or.inl ⟨record', (State.requests_of_ne _ _ heq).symm.trans hrecord⟩)
    · exact Or.inl (Or.inr hlaunching)
  | abandon t₀ =>
    obtain rfl := abandon_cases h
    exact Or.inl (ht.of_setRequest fun _ hq => by cases hq)
  | file t₀ =>
    obtain ⟨appId, record, host, hrequest, hfile, rfl⟩ := file_cases h
    have hfiled := Launching.of_setRequest (fun _ hq => by cases hq) ht
    rcases hfiled with hanswered | hlaunching
    · exact Or.inl (Or.inl hanswered)
    · rcases launching_file hfile hlaunching with hold | ⟨rfl, rfl⟩
      · exact Or.inl (Or.inr hold)
      · exact Or.inl (Or.inl ⟨record, hrequest⟩)
  | reset t₀ =>
    obtain ⟨host, hreset, rfl⟩ := reset_cases h
    exact Or.inl (ht.imp_right (launching_reset hreset))
  | start pid uid' r n =>
    obtain rfl := Option.some.inj h
    rcases start_cases (s := s) pid uid' r n with hs | hs <;> rw [hs] at ht <;> exact Or.inl ht
  | handle i =>
    obtain ⟨l, -, -, rfl | ⟨record, -, rfl⟩⟩ := handle_cases h
    · exact Or.inl ht
    · exact Or.inl ht
  | read =>
    obtain ⟨_, _, -, ⟨rfl, -⟩ | ⟨count, rfl, -⟩⟩ := read_cases h
    · exact Or.inl ht
    · exact Or.inl ht
  | write =>
    obtain ⟨_, _, _, _, host, -, -, hwrite, rfl⟩ := write_cases h
    exact Or.inl (ht.imp_right fun hl => (launching_write hwrite) ▸ hl)
  | answer raised delivered =>
    obtain ⟨_, _, _, -, rfl | ⟨_, -, rfl⟩⟩ := answer_cases h
    · exact Or.inl ht
    · exact Or.inl ht
  | settle i =>
    obtain ⟨_, _, -, rfl⟩ := settle_cases h
    exact Or.inl ht
  | giveUp i =>
    obtain rfl := giveUp_cases h
    exact Or.inl ht
  | other op =>
    obtain rfl := Option.some.inj h
    exact Or.inl ht

theorem reported_step (h : step uidOf maxLaunchCount clearHistoryLaunch command s l = some s')
    (hr : Reported s' uid) : Reported s uid ∨ ∃ pid r n, l = .start pid uid r n := by
  cases l with
  | launch t₀ pkg record =>
    obtain ⟨-, -, rfl⟩ := launch_cases h
    exact Or.inl hr
  | setInterceptApp t₀ =>
    obtain ⟨pkg, record, -, rfl⟩ := setInterceptApp_cases h
    exact Or.inl hr
  | abandon t₀ =>
    obtain rfl := abandon_cases h
    exact Or.inl hr
  | file t₀ =>
    obtain ⟨_, _, _, -, -, rfl⟩ := file_cases h
    exact Or.inl hr
  | reset t₀ =>
    obtain ⟨host, -, rfl⟩ := reset_cases h
    exact Or.inl hr
  | start pid uid' r n =>
    obtain rfl := Option.some.inj h
    rcases start_cases (s := s) pid uid' r n with hs | hs
    · rw [hs] at hr
      exact Or.inl hr
    · rw [hs] at hr
      by_cases huid : uid' = uid
      · subst huid
        exact Or.inr ⟨pid, r, n, rfl⟩
      · obtain ⟨i, r', hi, hlaunch⟩ := hr
        by_cases hsent : i = s.sent
        · subst hsent
          cases (State.reports_self ..).symm.trans hi
          exact absurd hlaunch huid
        · exact Or.inl ⟨i, r', (State.reports_of_ne _ _ hsent).symm.trans hi, hlaunch⟩
  | handle i =>
    obtain ⟨l, -, hreport, rfl | ⟨record, -, rfl⟩⟩ := handle_cases h
    · exact Or.inl (hr.of_setReport fun r hr => by cases hr; exact ⟨_, hreport, rfl⟩)
    · exact Or.inl hr
  | read =>
    obtain ⟨_, _, -, ⟨rfl, -⟩ | ⟨count, rfl, -⟩⟩ := read_cases h
    · exact Or.inl hr
    · exact Or.inl hr
  | write =>
    obtain ⟨_, _, _, _, host, -, -, -, rfl⟩ := write_cases h
    exact Or.inl hr
  | answer raised delivered =>
    obtain ⟨i, _, ret, -, rfl | ⟨sent, -, rfl⟩⟩ := answer_cases h
    · exact Or.inl hr
    · refine Or.inl (Reported.of_setReport (fun r hr => ?_) hr)
      obtain ⟨r', hreport, rfl⟩ := Option.map_eq_some_iff.mp hr
      exact ⟨r', hreport, rfl⟩
  | settle i =>
    obtain ⟨_, _, -, rfl⟩ := settle_cases h
    exact Or.inl (Reported.of_setReport (fun r hr => by cases hr) hr)
  | giveUp i =>
    obtain rfl := giveUp_cases h
    exact Or.inl (hr.of_setReport fun r hr => by cases hr)
  | other op =>
    obtain rfl := Option.some.inj h
    exact Or.inl hr

/-- A uid stays intercepted unless it is refused, a launch clears the registry, or another
    client takes it out. -/
theorem intercepted_step (huid : uid > SYSTEM_UID)
    (h : step uidOf maxLaunchCount clearHistoryLaunch command s l = some s')
    (hi : Intercepted s.agent uid) :
    Intercepted s'.agent uid ∨ Refused s uid ∨
      (∃ t pkg record, l = .setInterceptApp t ∧ s.requests t = some (.asking pkg record) ∧
        clearHistoryLaunch = true ∧ uidOf pkg ≠ some uid) ∨
      ∃ op, l = .other op ∧ ¬ Intercepted (s.agent.apply uidOf op) uid := by
  cases l with
  | launch t₀ pkg record =>
    obtain ⟨-, -, rfl⟩ := launch_cases h
    exact Or.inl hi
  | setInterceptApp t₀ =>
    obtain ⟨pkg, record, hrequest, rfl⟩ := setInterceptApp_cases h
    by_cases happ : uidOf pkg = some uid
    · exact Or.inl ((intercepted_setInterceptApp huid pkg _).mpr (Or.inr (Or.inr (Or.inl happ))))
    · cases hclear : clearHistoryLaunch with
      | false =>
        exact Or.inl ((intercepted_setInterceptApp huid pkg _).mpr
          (Or.inr (Or.inr (Or.inr ⟨rfl, hi⟩))))
      | true => exact Or.inr (Or.inr (Or.inl ⟨t₀, pkg, record, rfl, hrequest, rfl, happ⟩))
  | abandon t₀ =>
    obtain rfl := abandon_cases h
    exact Or.inl hi
  | file t₀ =>
    obtain ⟨_, _, _, -, -, rfl⟩ := file_cases h
    exact Or.inl hi
  | reset t₀ =>
    obtain ⟨host, -, rfl⟩ := reset_cases h
    exact Or.inl hi
  | start pid uid' r n =>
    obtain rfl := Option.some.inj h
    rcases start_cases (s := s) pid uid' r n with hs | hs <;> rw [hs] <;> exact Or.inl hi
  | handle i =>
    obtain ⟨l, -, -, rfl | ⟨record, -, rfl⟩⟩ := handle_cases h
    · exact Or.inl hi
    · exact Or.inl hi
  | read =>
    obtain ⟨_, _, -, ⟨rfl, -⟩ | ⟨count, rfl, -⟩⟩ := read_cases h
    · exact Or.inl hi
    · exact Or.inl hi
  | write =>
    obtain ⟨_, _, _, _, host, -, -, -, rfl⟩ := write_cases h
    exact Or.inl hi
  | answer raised delivered =>
    obtain ⟨_, _, _, -, rfl | ⟨_, -, rfl⟩⟩ := answer_cases h
    · exact Or.inl hi
    · exact Or.inl hi
  | settle i =>
    obtain ⟨l, ret, hreport, rfl⟩ := settle_cases h
    by_cases hrefused : ret = -1 ∧ l.uid = uid
    · obtain ⟨rfl, rfl⟩ := hrefused
      exact Or.inr (Or.inl ⟨i, _, hreport, rfl, Or.inl rfl⟩)
    · refine Or.inl ((intercepted_notify huid ret l).mpr ⟨hi, fun hret hl => ?_⟩)
      exact absurd ⟨hret, hl⟩ hrefused
  | giveUp i =>
    obtain rfl := giveUp_cases h
    exact Or.inl hi
  | other op =>
    obtain rfl := Option.some.inj h
    by_cases hop : Intercepted (s.agent.apply uidOf op) uid
    · exact Or.inl hop
    · exact Or.inr (Or.inr (Or.inr ⟨op, rfl, hop⟩))

/-- A promise is made by a launch, which does not touch the registry then. -/
theorem promised_step (hcounted : Counted s.host)
    (h : step uidOf maxLaunchCount clearHistoryLaunch command s l = some s')
    (hp : Promised maxLaunchCount s'.host uid) :
    Promised maxLaunchCount s.host uid ∨ s'.agent = s.agent ∧ ∃ t, Launching s t uid := by
  cases l with
  | launch t₀ pkg record =>
    obtain ⟨-, -, rfl⟩ := launch_cases h
    cases clearHistoryLaunch with
    | false => exact Or.inl hp
    | true => exact absurd hp.1 (by simp [cleared, State.setRequest])
  | setInterceptApp t₀ =>
    obtain ⟨pkg, record, -, rfl⟩ := setInterceptApp_cases h
    exact Or.inl hp
  | abandon t₀ =>
    obtain rfl := abandon_cases h
    exact Or.inl hp
  | file t₀ =>
    obtain ⟨appId, record, host, hrequest, hfile, rfl⟩ := file_cases h
    rcases (promised_file hfile).mp hp with hold | ⟨rfl, -⟩
    · exact Or.inl hold
    · exact Or.inr ⟨rfl, t₀, Or.inl ⟨record, hrequest⟩⟩
  | reset t₀ =>
    obtain ⟨host, hreset, rfl⟩ := reset_cases h
    obtain ⟨appId, hlaunching⟩ := launching_of_reset hreset
    rcases (promised_reset hlaunching hreset).mp hp with ⟨-, hold⟩ | ⟨rfl, -⟩
    · exact Or.inl hold
    · exact Or.inr ⟨rfl, t₀, Or.inr hlaunching⟩
  | start pid uid' r n =>
    obtain rfl := Option.some.inj h
    rcases start_cases (s := s) pid uid' r n with hs | hs <;> rw [hs] at hp <;> exact Or.inl hp
  | handle i =>
    obtain ⟨l, -, -, rfl | ⟨record, -, rfl⟩⟩ := handle_cases h
    · exact Or.inl hp
    · exact Or.inl hp
  | read =>
    obtain ⟨_, _, -, ⟨rfl, -⟩ | ⟨count, rfl, -⟩⟩ := read_cases h
    · exact Or.inl hp
    · exact Or.inl hp
  | write =>
    obtain ⟨_, _, _, _, host, -, -, hwrite, rfl⟩ := write_cases h
    exact Or.inl (promised_write hcounted hwrite hp)
  | answer raised delivered =>
    obtain ⟨_, _, _, -, rfl | ⟨_, -, rfl⟩⟩ := answer_cases h
    · exact Or.inl hp
    · exact Or.inl hp
  | settle i =>
    obtain ⟨_, _, -, rfl⟩ := settle_cases h
    exact Or.inl hp
  | giveUp i =>
    obtain rfl := giveUp_cases h
    exact Or.inl hp
  | other op =>
    obtain rfl := Option.some.inj h
    exact Or.inl hp

end Step

end Albatross.LaunchProtocol
