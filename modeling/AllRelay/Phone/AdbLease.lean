import AllRelay.Library.LabelledSystem
import Mathlib.Data.Int.Notation
import Mathlib.Data.Nat.Notation
import Mathlib.Logic.Function.Basic

/-!
# The wireless ADB lease

`AllRelayService` turns ADB over Wi-Fi on for a lease: a timer turns it off again at the deadline,
which is persisted so that a restarted service can pick the lease up. Requests are handled on
several threads. `adbLock` guards the status and the lease, but the root commands of `/adb/enable`
run outside it, and a disable holds it over its own.

The steps below are the sections of the code between two points where other threads can get in. A
root command succeeds, fails or times out, and a status check reports what it likes. The timer waits
by the clock of its executor, while deadlines are times of the wall clock, which can be set.
Preferences are written to disk later than they are changed. A restart is the end of the process:
handlers in flight vanish with it, and the new service restores what the preferences on disk say. A
root command that has timed out, or that has lost its process, may go on.

A disable clears the lease whatever its root command did, and an enable whose status check misses
that ADB is on grants none (`lease_lost`). `adb_lease_safety` says which outcomes of root commands
and status checks, and which restarts, do harm.
-/

open LabelledSystem

namespace AllRelay.Phone

/-- `WirelessAdbStatus`, without its message. -/
structure AdbStatus where
  enabled : Bool
  listening : Bool
  port : Option ℕ
deriving DecidableEq, Repr

/-- The preferences of the service. -/
structure Prefs where
  /-- `PREF_ADB_DISABLE_AT_MS`; zero if there is none. -/
  disableAtMs : ℕ
  /-- `PREF_ADB_ENABLED`. -/
  enabled : Option Bool
  /-- `PREF_ADB_PORT`. -/
  port : ℕ
deriving DecidableEq, Repr

/-- `ADB_TCP_DEFAULT_PORT`. -/
def adbTcpDefaultPort : ℕ := 5555

/-- `DEFAULT_ADB_TIMEOUT_SECONDS`. -/
def defaultAdbTimeoutSeconds : ℤ := 15 * 60

/-- Where a handler of `/adb/enable` is. -/
inductive Enabling where
  /-- There is none. -/
  | idle
  /-- In the root command. -/
  | commanding (timeoutSeconds : ℤ)
  /-- Polling the status. -/
  | polling (timeoutSeconds : ℤ)
  /-- Before `updateAdbStatus`. -/
  | updating (timeoutSeconds : ℤ) (status : AdbStatus)
  /-- Before `scheduleAutoDisable`. -/
  | scheduling (timeoutSeconds : ℤ)
deriving DecidableEq, Repr

namespace Enabling

/-- The root command is under way. -/
def isCommanding : Enabling → Bool
  | .commanding _ => true
  | _ => false

/-- The root command is over, and its status check is still to be stored. -/
def Checking : Enabling → Prop
  | .polling _ => True
  | .updating .. => True
  | _ => False

/-- The status said that ADB is on, and a lease is to be granted. -/
def Granting : Enabling → Prop
  | .scheduling _ => True
  | _ => False

end Enabling

/-- Where `disableWirelessAdbAndClearLease` is, in its lock section. -/
inductive Disabling where
  /-- Before the root command. -/
  | commanding
  /-- Polling the status. -/
  | polling
  /-- Before `updateAdbStatus`. -/
  | updating (status : AdbStatus)
  /-- Before `clearAdbTimer`. -/
  | clearing
deriving DecidableEq, Repr

/-- Who calls `disableWirelessAdbAndClearLease`. -/
inductive Disabler where
  /-- A request to `/adb/disable`. -/
  | request
  /-- The timer's task. -/
  | timer
  /-- `restoreAdbTimeoutIfNeeded`. -/
  | restore
deriving DecidableEq, Repr

/-- There is no request: the lease is over. -/
def Disabler.unasked : Disabler → Bool
  | .request => false
  | .timer | .restore => true

/-- The task that `autoDisableFuture` waits for. -/
structure Timer where
  /-- `disableAt`, which the task compares with `autoDisableAtMs`. -/
  disableAt : ℕ
  /-- When the executor runs the task, by its own clock. -/
  due : ℕ
deriving DecidableEq, Repr

/-- `AllRelayService`, and the phone it runs on. -/
structure AdbService where
  /-- `System.currentTimeMillis()`. -/
  now : ℕ
  /-- The clock of `scheduler`. -/
  uptime : ℕ
  /-- The adb TCP property was set by an enable command of the service, and not reset since. -/
  property : Bool
  prefs : Prefs
  /-- The preferences that `apply()` has written. -/
  disk : Prefs
  adbStatus : AdbStatus
  autoDisableAtMs : ℕ
  autoDisableFuture : Option Timer
  /-- `disableAt` of the task that has fired and waits for `adbLock`. -/
  fired : Option ℕ
  /-- The thread that disables ADB under `adbLock`. -/
  disabling : Option (Disabling × Disabler)
  /-- The handlers of `/adb/enable`. -/
  enabling : ℕ → Enabling
  /-- The root commands of enables that have outlived their timeout or their process. -/
  orphanedEnables : ℕ → Bool
  /-- And those of disables. -/
  orphanedDisables : List Disabler
  /-- History: the deadline of the latest granted or renewed lease. -/
  lease : ℕ
  /-- History: the timer, or a restarted service, disabled ADB before that deadline. -/
  tooEarly : Bool

namespace AdbService

/-- The status of a new service. -/
def disabledStatus : AdbStatus :=
  ⟨false, false, none⟩

/-- A fresh installation. -/
def start (now uptime : ℕ) : AdbService where
  now
  uptime
  property := false
  prefs := ⟨0, none, adbTcpDefaultPort⟩
  disk := ⟨0, none, adbTcpDefaultPort⟩
  adbStatus := disabledStatus
  autoDisableAtMs := 0
  autoDisableFuture := none
  fired := none
  disabling := none
  enabling _ := .idle
  orphanedEnables _ := false
  orphanedDisables := []
  lease := 0
  tooEarly := false

/-- `updateAdbStatus`. -/
def updateAdbStatus (s : AdbService) (status : AdbStatus) : AdbService :=
  { s with
    adbStatus := status
    prefs :=
      { s.prefs with enabled := some status.enabled, port := status.port.getD adbTcpDefaultPort } }

/-- The deadline that `scheduleAutoDisableLocked` computes. -/
def disableAt (s : AdbService) (timeoutSeconds : ℤ) : ℕ :=
  s.now + (max timeoutSeconds 30).toNat * 1000

/-- `scheduleAutoDisableAt`. -/
def scheduleAutoDisableAt (s : AdbService) (disableAt : ℕ) : AdbService :=
  { s with autoDisableFuture := some ⟨disableAt, s.uptime + (disableAt - s.now)⟩ }

/-- `scheduleAutoDisableLocked`: a lease is granted or renewed. -/
def scheduleAutoDisable (s : AdbService) (timeoutSeconds : ℤ) : AdbService :=
  { s with
    autoDisableAtMs := s.disableAt timeoutSeconds
    prefs := { s.prefs with disableAtMs := s.disableAt timeoutSeconds }
    lease := s.disableAt timeoutSeconds }.scheduleAutoDisableAt (s.disableAt timeoutSeconds)

/-- `clearAdbTimer`. -/
def clearAdbTimer (s : AdbService) : AdbService :=
  { s with autoDisableAtMs := 0, prefs := { s.prefs with disableAtMs := 0 } }

/-- `cancelAutoDisable`. -/
def cancelAutoDisable (s : AdbService) : AdbService :=
  { s with autoDisableFuture := none }.clearAdbTimer

/-- `renewAdbLease`. -/
def renewAdbLease (s : AdbService) (timeoutSeconds : ℤ) : AdbService :=
  if !s.adbStatus.enabled then s else s.scheduleAutoDisable timeoutSeconds

/-- `syncAdbStatusFromActivity`. -/
def syncAdbStatusFromActivity (s : AdbService) (status : AdbStatus) : AdbService :=
  let s := s.updateAdbStatus status
  if status.enabled then
    if s.autoDisableAtMs ≤ s.now then s.scheduleAutoDisable defaultAdbTimeoutSeconds else s
  else s.cancelAutoDisable

/-- The beginning of `disableWirelessAdbAndClearLease`. -/
def beginDisable (s : AdbService) (caller : Disabler) : AdbService :=
  { s with autoDisableFuture := none, disabling := some (.commanding, caller) }

/-- A root command that disables ADB ends. -/
def disableCommand (s : AdbService) (caller : Disabler) (ok : Bool) : AdbService :=
  { s with
    property := s.property && !ok
    tooEarly := s.tooEarly || (caller.unasked && s.now < s.lease) }

/-- `AdbLeaseRestoreAction`. -/
inductive AdbLeaseRestoreAction where
  | disable
  | clear
  | restore
deriving DecidableEq, Repr

/-- `adbLeaseRestoreAction`. -/
def adbLeaseRestoreAction (disableAtMs nowMs : ℕ) (storedEnabled : Option Bool) :
    AdbLeaseRestoreAction :=
  if disableAtMs = 0 then .clear
  else if disableAtMs ≤ nowMs then .disable
  else if storedEnabled = some false then .clear
  else .restore

/-- `restoreAdbTimeoutIfNeeded`, up to a disable. -/
def restoreAdbTimeoutIfNeeded (s : AdbService) : AdbService :=
  if s.prefs.disableAtMs = 0 then s
  else
    match adbLeaseRestoreAction s.prefs.disableAtMs s.now s.prefs.enabled with
    | .disable => s.beginDisable .restore
    | .clear => s.clearAdbTimer
    | .restore =>
      { s with
        adbStatus := ⟨true, false, some s.prefs.port⟩
        prefs := { s.prefs with enabled := some (s.prefs.enabled.getD true) }
        autoDisableAtMs := s.prefs.disableAtMs }.scheduleAutoDisableAt s.prefs.disableAtMs

/-- The root commands of disables that are under way when the process ends. -/
def disablesLeft (s : AdbService) : List Disabler :=
  match s.disabling with
  | some (.commanding, caller) => caller :: s.orphanedDisables
  | _ => s.orphanedDisables

/-- The process ends; a new service has what is on disk. -/
def endProcess (s : AdbService) : AdbService :=
  { s with
    prefs := s.disk
    adbStatus := disabledStatus
    autoDisableAtMs := 0
    autoDisableFuture := none
    fired := none
    disabling := none
    enabling := fun _ ↦ .idle
    orphanedEnables := fun id ↦ s.orphanedEnables id || (s.enabling id).isCommanding
    orphanedDisables := s.disablesLeft }

/-- The service is created again. -/
def restart (s : AdbService) : AdbService :=
  s.endProcess.restoreAdbTimeoutIfNeeded

/-- A handler of `/adb/enable` goes on. -/
def setEnabling (s : AdbService) (id : ℕ) (e : Enabling) : AdbService :=
  { s with enabling := Function.update s.enabling id e }

/-- What happens. -/
inductive Event where
  /-- Time passes. -/
  | tick (ms : ℕ)
  /-- The wall clock is set. -/
  | setClock (ms : ℕ)
  /-- The preferences reach the disk. -/
  | writePrefs
  /-- A request to `/adb/enable`. -/
  | enable (id : ℕ) (timeoutSeconds : ℤ)
  /-- Its root command ends. -/
  | enableCommand (id : ℕ) (ok : Bool)
  /-- Or it times out, and goes on. -/
  | enableTimeout (id : ℕ)
  /-- It ends after all. -/
  | orphanedEnable (id : ℕ) (ok : Bool)
  /-- Its last poll has read a status. -/
  | enablePoll (id : ℕ) (status : AdbStatus)
  /-- Its `updateAdbStatus`. -/
  | enableUpdate (id : ℕ)
  /-- Its `scheduleAutoDisable`. -/
  | enableSchedule (id : ℕ)
  /-- A request to `/adb/disable` gets the lock. -/
  | disable
  /-- The root command of a disable ends. -/
  | disableCommand (ok : Bool)
  /-- Or it times out, and goes on. -/
  | disableTimeout
  /-- It ends after all. -/
  | orphanedDisable (caller : Disabler) (ok : Bool)
  /-- Its last poll has read a status. -/
  | disablePoll (status : AdbStatus)
  /-- Its `updateAdbStatus`. -/
  | disableUpdate
  /-- Its `clearAdbTimer`. -/
  | disableClear
  /-- A request to `/adb/heartbeat`. -/
  | heartbeat (timeoutSeconds : ℤ)
  /-- The activity sends a status. -/
  | sync (status : AdbStatus)
  /-- The activity disables ADB itself. -/
  | activityDisable
  /-- The timer fires. -/
  | fire
  /-- The timer's task gets the lock. -/
  | runTimer
  /-- The service is restarted. -/
  | restart
deriving DecidableEq, Repr

/-- A section that needs `adbLock`. -/
def locked (s : AdbService) (t : AdbService) : Option AdbService :=
  if s.disabling = none then some t else none

/-- One step. -/
def step (s : AdbService) : Event → Option AdbService
  | .tick ms => some { s with now := s.now + ms, uptime := s.uptime + ms }
  | .setClock ms => some { s with now := ms }
  | .writePrefs => some { s with disk := s.prefs }
  | .enable id timeoutSeconds =>
    -- The control server is started after `restoreAdbTimeoutIfNeeded`.
    if s.enabling id = .idle ∧ s.orphanedEnables id = false ∧
        s.disabling.map Prod.snd ≠ some .restore then
      some (s.setEnabling id (.commanding timeoutSeconds))
    else none
  | .enableCommand id ok =>
    match s.enabling id with
    | .commanding timeoutSeconds =>
      some { s.setEnabling id (.polling timeoutSeconds) with property := s.property || ok }
    | _ => none
  | .enableTimeout id =>
    match s.enabling id with
    | .commanding timeoutSeconds =>
      some { s.setEnabling id (.polling timeoutSeconds) with
        orphanedEnables := Function.update s.orphanedEnables id true }
    | _ => none
  | .orphanedEnable id ok =>
    if s.orphanedEnables id then
      some { s with
        property := s.property || ok
        orphanedEnables := Function.update s.orphanedEnables id false }
    else none
  | .enablePoll id status =>
    match s.enabling id with
    | .polling timeoutSeconds => some (s.setEnabling id (.updating timeoutSeconds status))
    | _ => none
  | .enableUpdate id =>
    match s.enabling id with
    | .updating timeoutSeconds status =>
      s.locked ((s.updateAdbStatus status).setEnabling id
        (if status.enabled then .scheduling timeoutSeconds else .idle))
    | _ => none
  | .enableSchedule id =>
    match s.enabling id with
    | .scheduling timeoutSeconds =>
      s.locked ((s.scheduleAutoDisable timeoutSeconds).setEnabling id .idle)
    | _ => none
  | .disable => s.locked (s.beginDisable .request)
  | .disableCommand ok =>
    match s.disabling with
    | some (.commanding, caller) =>
      some { s.disableCommand caller ok with disabling := some (.polling, caller) }
    | _ => none
  | .disableTimeout =>
    match s.disabling with
    | some (.commanding, caller) =>
      some { s with
        disabling := some (.polling, caller)
        orphanedDisables := caller :: s.orphanedDisables }
    | _ => none
  | .orphanedDisable caller ok =>
    if caller ∈ s.orphanedDisables then
      some { s.disableCommand caller ok with
        orphanedDisables := s.orphanedDisables.erase caller }
    else none
  | .disablePoll status =>
    match s.disabling with
    | some (.polling, caller) => some { s with disabling := some (.updating status, caller) }
    | _ => none
  | .disableUpdate =>
    match s.disabling with
    | some (.updating status, caller) =>
      some { s.updateAdbStatus status with disabling := some (.clearing, caller) }
    | _ => none
  | .disableClear =>
    match s.disabling with
    | some (.clearing, _) => some { s.clearAdbTimer with disabling := none }
    | _ => none
  | .heartbeat timeoutSeconds => s.locked (s.renewAdbLease timeoutSeconds)
  | .sync status => s.locked (s.syncAdbStatusFromActivity status)
  | .activityDisable => some { s with property := false }
  | .fire =>
    match s.autoDisableFuture, s.fired with
    | some timer, none =>
      if timer.due ≤ s.uptime then
        some { s with autoDisableFuture := none, fired := some timer.disableAt }
      else none
    | _, _ => none
  | .runTimer =>
    match s.fired with
    | some disableAt =>
      s.locked <|
        if s.autoDisableAtMs = disableAt then { s with fired := none }.beginDisable .timer
        else { s with fired := none }
    | none => none
  | .restart => some s.restart

/-! ### The lease -/

/-- Wireless ADB is on, as far as the service is concerned. -/
def On (s : AdbService) : Prop :=
  s.adbStatus.enabled = true ∨ s.property = true

/-- Nothing is in flight: no handler, no task of the timer, no write of the preferences. Root
commands that were left behind may go on. -/
structure Quiescent (s : AdbService) : Prop where
  disabling : s.disabling = none
  fired : s.fired = none
  enabling : ∀ id, s.enabling id = .idle
  disk : s.disk = s.prefs

/-- A timer is armed, and its deadline is persisted. -/
def Leased (s : AdbService) : Prop :=
  ∃ timer, 0 < timer.disableAt ∧ s.autoDisableFuture = some timer ∧
    s.disk.disableAtMs = timer.disableAt

/-- A handler of `/adb/enable` is going to store a status check. -/
def Checks (s : AdbService) : Prop :=
  ∃ id, (s.enabling id).Checking

/-- The condition of the first part, on the outcomes of root commands and status checks, and on
where the handlers are at a restart. -/
def Keeps (s : AdbService) : Event → Prop
  -- An enable command that was left behind sets the property only under a later status check.
  | .orphanedEnable _ ok => ok = true → s.property = true ∨ s.Checks
  -- A status check that says off is stored only if the property is not set.
  | .enableUpdate id =>
    ∀ timeout status, s.enabling id = .updating timeout status → status.enabled = false →
      s.property = false
  | .sync status => status.enabled = false → s.property = false
  -- The root command of a disable succeeds in time, if the property is set.
  | .disableCommand ok => s.property = true → ok = true
  | .disableTimeout => s.property = false
  -- Its status check says on only if an enable command has succeeded since.
  | .disablePoll status => status.enabled = true → s.property = true
  -- If the property is set, the preferences are on disk, and no handler is between its enable
  -- command and its lease.
  | .restart => s.property = true → s.disk = s.prefs ∧
      ∀ id, ¬(s.enabling id).Checking ∧ ¬(s.enabling id).Granting
  | _ => True

/-- A root command is under way that disables ADB because a lease was over. -/
def EndsLease (s : AdbService) : Prop :=
  ∃ caller : Disabler, caller.unasked = true ∧
    (s.disabling = some (.commanding, caller) ∨ caller ∈ s.orphanedDisables)

/-- The timer is armed, its task is about to disable ADB, or ADB is being disabled. -/
def TimerPending (s : AdbService) : Prop :=
  s.autoDisableFuture ≠ none ∨ s.fired ≠ none ∨ s.EndsLease

/-- The event grants a lease, or renews it. -/
def Grants (s : AdbService) : Event → Prop
  | .enableSchedule _ => True
  | .heartbeat _ => s.adbStatus.enabled = true
  | .sync status => status.enabled = true ∧ s.autoDisableAtMs ≤ s.now
  | _ => False

/-- The condition of the second part, on the wall clock, on the preferences at a restart, and on
root commands that were left behind. -/
def Timely (s : AdbService) : Event → Prop
  -- The wall clock is not set back while the timer is pending.
  | .setClock ms => s.TimerPending → s.now ≤ ms
  -- The deadline is on disk.
  | .restart => s.disk.disableAtMs = s.prefs.disableAtMs
  -- No disable is left from an earlier lease.
  | e => s.Grants e → ∀ caller ∈ s.orphanedDisables, caller.unasked = false

/-! ### The timer -/

variable {s t u : AdbService} {e : Enabling}

theorem locked_eq_some_iff : s.locked t = some u ↔ s.disabling = none ∧ t = u := by
  unfold locked
  split_ifs with h
  · simp [h]
  · simp [h]

theorem disableAt_pos (s : AdbService) (timeoutSeconds : ℤ) : 0 < s.disableAt timeoutSeconds := by
  unfold disableAt
  omega

/-- The timer of the current lease is armed or has fired. -/
def Armed (s : AdbService) : Prop :=
  (∃ timer, s.autoDisableFuture = some timer ∧ timer.disableAt = s.autoDisableAtMs) ∨
    s.fired = some s.autoDisableAtMs

/-- What holds of the timer, whatever happens. -/
structure Base (s : AdbService) : Prop where
  /-- Outside a disable, a lease has its timer. -/
  armed : s.disabling = none → 0 < s.autoDisableAtMs → s.Armed
  prefs : s.disabling = none ∨ 0 < s.autoDisableAtMs → s.prefs.disableAtMs = s.autoDisableAtMs
  future_pos : ∀ timer, s.autoDisableFuture = some timer → 0 < timer.disableAt
  fired_pos : ∀ d, s.fired = some d → 0 < d

/-- What holds of the deadlines, while the clock is not set back and no deadline is lost. -/
structure Punctual (s : AdbService) : Prop where
  /-- The lease is the latest one. -/
  lease : 0 < s.prefs.disableAtMs → s.prefs.disableAtMs = s.lease
  /-- When the executor runs the task, its deadline is over. -/
  due : ∀ timer, s.autoDisableFuture = some timer → timer.disableAt + s.uptime ≤ s.now + timer.due
  fired_le : ∀ d, s.fired = some d → d ≤ s.now
  /-- Nobody disables ADB, without a request, before the end of the lease. -/
  endsLease : s.EndsLease → s.lease ≤ s.now
  not_tooEarly : s.tooEarly = false

/-- A section that does not touch the timer. -/
structure KeepsTimer (s t : AdbService) : Prop where
  now : t.now = s.now
  uptime : t.uptime = s.uptime
  disableAtMs : t.prefs.disableAtMs = s.prefs.disableAtMs
  autoDisableAtMs : t.autoDisableAtMs = s.autoDisableAtMs
  autoDisableFuture : t.autoDisableFuture = s.autoDisableFuture
  fired : t.fired = s.fired
  lease : t.lease = s.lease
  tooEarly : t.tooEarly = s.tooEarly
  orphanedDisables : t.orphanedDisables = s.orphanedDisables

theorem Base.keepsTimer (hs : s.Base) (hk : KeepsTimer s t)
    (hdisabling : t.disabling = none → s.disabling = none) : t.Base where
  armed hfree hpos := by
    rw [Armed, hk.autoDisableFuture, hk.autoDisableAtMs, hk.fired]
    exact hs.armed (hdisabling hfree) (hk.autoDisableAtMs ▸ hpos)
  prefs h := by
    rw [hk.autoDisableAtMs] at h
    rw [hk.disableAtMs, hk.autoDisableAtMs, hs.prefs (h.imp_left hdisabling)]
  future_pos timer h := hs.future_pos timer (hk.autoDisableFuture ▸ h)
  fired_pos d h := hs.fired_pos d (hk.fired ▸ h)

theorem EndsLease.mono (h : t.EndsLease)
    (hdisabling : ∀ caller, t.disabling = some (.commanding, caller) →
      s.disabling = some (.commanding, caller))
    (horphaned : ∀ caller ∈ t.orphanedDisables, caller ∈ s.orphanedDisables) : s.EndsLease := by
  obtain ⟨caller, hcaller, h⟩ := h
  exact ⟨caller, hcaller, h.imp (hdisabling caller) (horphaned caller)⟩

theorem Punctual.keepsTimer (hs : s.Punctual) (hk : KeepsTimer s t)
    (hdisabling : ∀ caller, t.disabling = some (.commanding, caller) →
      s.disabling = some (.commanding, caller)) : t.Punctual where
  lease hpos := by
    rw [hk.disableAtMs] at hpos ⊢
    rw [hk.lease, hs.lease hpos]
  due timer h := by
    rw [hk.uptime, hk.now]
    exact hs.due timer (hk.autoDisableFuture ▸ h)
  fired_le d h := hk.now ▸ hs.fired_le d (hk.fired ▸ h)
  endsLease h := by
    rw [hk.lease, hk.now]
    exact hs.endsLease (h.mono hdisabling fun _ h ↦ hk.orphanedDisables ▸ h)
  not_tooEarly := hk.tooEarly.trans hs.not_tooEarly

/-- Without a lease there is no timer. -/
theorem Base.of_none (hlease : s.autoDisableAtMs = 0) (hprefs : s.prefs.disableAtMs = 0)
    (hfuture : s.autoDisableFuture = none) (hfired : s.fired = none) : s.Base where
  armed _ hpos := absurd hlease (Nat.ne_of_gt hpos)
  prefs _ := hprefs.trans hlease.symm
  future_pos timer h := absurd (hfuture.symm.trans h) (Option.some_ne_none timer).symm
  fired_pos d h := absurd (hfired.symm.trans h) (Option.some_ne_none d).symm

theorem Punctual.of_none (hlease : 0 < s.prefs.disableAtMs → s.prefs.disableAtMs = s.lease)
    (hfuture : s.autoDisableFuture = none) (hfired : s.fired = none)
    (hends : s.EndsLease → s.lease ≤ s.now) (hearly : s.tooEarly = false) : s.Punctual where
  lease := hlease
  due timer h := absurd (hfuture.symm.trans h) (Option.some_ne_none timer).symm
  fired_le d h := absurd (hfired.symm.trans h) (Option.some_ne_none d).symm
  endsLease := hends
  not_tooEarly := hearly

theorem start_base (now uptime : ℕ) : (start now uptime).Base :=
  .of_none rfl rfl rfl rfl

theorem start_punctual (now uptime : ℕ) : (start now uptime).Punctual :=
  .of_none (fun h ↦ absurd h (Nat.lt_irrefl 0)) rfl rfl (fun _ ↦ Nat.zero_le now) rfl

/-- A new lease. -/
theorem Base.scheduleAutoDisable (hs : s.Base) (timeoutSeconds : ℤ) :
    (s.scheduleAutoDisable timeoutSeconds).Base where
  armed _ _ := .inl ⟨_, rfl, rfl⟩
  prefs _ := rfl
  future_pos _ h := Option.some.inj h ▸ s.disableAt_pos timeoutSeconds
  fired_pos := hs.fired_pos

/-- The delay reaches the deadline. -/
theorem due_scheduleAutoDisableAt (s : AdbService) (disableAt : ℕ) :
    ∀ timer, (s.scheduleAutoDisableAt disableAt).autoDisableFuture = some timer →
      timer.disableAt + s.uptime ≤ s.now + timer.due := by
  intro timer h
  obtain rfl := Option.some.inj h
  show disableAt + s.uptime ≤ s.now + (s.uptime + (disableAt - s.now))
  omega

theorem Punctual.scheduleAutoDisable (hs : s.Punctual) (hfree : s.disabling = none)
    (hasked : ∀ caller ∈ s.orphanedDisables, caller.unasked = false) (timeoutSeconds : ℤ) :
    (s.scheduleAutoDisable timeoutSeconds).Punctual where
  lease _ := rfl
  due := due_scheduleAutoDisableAt { s with
    autoDisableAtMs := s.disableAt timeoutSeconds
    prefs := { s.prefs with disableAtMs := s.disableAt timeoutSeconds }
    lease := s.disableAt timeoutSeconds } _
  fired_le := hs.fired_le
  endsLease h := by
    obtain ⟨caller, hcaller, hdisabling | horphaned⟩ := h
    · exact absurd (hfree.symm.trans hdisabling) (Option.some_ne_none _).symm
    · exact absurd ((hasked caller horphaned).symm.trans hcaller) Bool.false_ne_true
  not_tooEarly := hs.not_tooEarly

/-- The lease is dropped. -/
theorem Base.cancelAutoDisable (hs : s.Base) : s.cancelAutoDisable.Base where
  armed _ h := absurd h (Nat.lt_irrefl 0)
  prefs _ := rfl
  future_pos _ h := by cases h
  fired_pos := hs.fired_pos

theorem Punctual.cancelAutoDisable (hs : s.Punctual) : s.cancelAutoDisable.Punctual where
  lease h := absurd h (Nat.lt_irrefl 0)
  due _ h := by cases h
  fired_le := hs.fired_le
  endsLease := hs.endsLease
  not_tooEarly := hs.not_tooEarly

/-- A disable begins: an unasked one, if the lease is over. -/
theorem Base.beginDisable (hs : s.Base) (caller : Disabler) : (s.beginDisable caller).Base where
  armed h := by cases h
  prefs h := hs.prefs (h.imp_left fun h ↦ by cases h)
  future_pos _ h := by cases h
  fired_pos := hs.fired_pos

theorem Punctual.beginDisable (hs : s.Punctual) {caller : Disabler}
    (h : caller.unasked = true → s.lease ≤ s.now) : (s.beginDisable caller).Punctual where
  lease := hs.lease
  due _ h := by cases h
  fired_le := hs.fired_le
  endsLease hends := by
    obtain ⟨other, hother, hdisabling | horphaned⟩ := hends
    · cases hdisabling
      exact h hother
    · exact hs.endsLease ⟨other, hother, .inr horphaned⟩
  not_tooEarly := hs.not_tooEarly

/-- A root command that disables ADB ends, in time. -/
theorem Punctual.tooEarly_disableCommand (hs : s.Punctual) {caller : Disabler}
    (h : s.disabling = some (.commanding, caller) ∨ caller ∈ s.orphanedDisables) (ok : Bool) :
    (s.disableCommand caller ok).tooEarly = false := by
  show (s.tooEarly || (caller.unasked && decide (s.now < s.lease))) = false
  rw [hs.not_tooEarly, Bool.false_or]
  rcases hcaller : caller.unasked with _ | _
  · rfl
  · rw [Bool.true_and, decide_eq_false_iff_not]
    exact Nat.not_lt_of_le (hs.endsLease ⟨caller, hcaller, h⟩)

/-- The status that the activity sends. -/
theorem Base.syncAdbStatusFromActivity (hs : s.Base) (status : AdbStatus) :
    (s.syncAdbStatusFromActivity status).Base := by
  have hupdate : (s.updateAdbStatus status).Base :=
    hs.keepsTimer ⟨rfl, rfl, rfl, rfl, rfl, rfl, rfl, rfl, rfl⟩ id
  unfold AdbService.syncAdbStatusFromActivity
  dsimp only
  split_ifs
  · exact hupdate.scheduleAutoDisable _
  · exact hupdate
  · exact hupdate.cancelAutoDisable

theorem Punctual.syncAdbStatusFromActivity (hs : s.Punctual) (hfree : s.disabling = none)
    {status : AdbStatus} (hC : s.Timely (.sync status)) :
    (s.syncAdbStatusFromActivity status).Punctual := by
  have hupdate : (s.updateAdbStatus status).Punctual :=
    hs.keepsTimer ⟨rfl, rfl, rfl, rfl, rfl, rfl, rfl, rfl, rfl⟩ fun _ h ↦ h
  unfold AdbService.syncAdbStatusFromActivity
  dsimp only
  split_ifs with hstatus hover
  · exact hupdate.scheduleAutoDisable hfree (hC ⟨hstatus, hover⟩) _
  · exact hupdate
  · exact hupdate.cancelAutoDisable

/-- The timer fires. -/
theorem Base.fire (hs : s.Base) {timer : Timer} (hfuture : s.autoDisableFuture = some timer)
    (hfired : s.fired = none) :
    Base { s with autoDisableFuture := none, fired := some timer.disableAt } where
  armed hfree hpos := by
    rcases hs.armed hfree hpos with ⟨timer', htimer, hd⟩ | hd
    · obtain rfl := Option.some.inj (hfuture.symm.trans htimer)
      exact .inr (congrArg some hd)
    · exact absurd (hd.symm.trans hfired) (Option.some_ne_none _)
  prefs := hs.prefs
  future_pos _ h := by cases h
  fired_pos d hd := Option.some.inj hd ▸ hs.future_pos timer hfuture

theorem Punctual.fire (hs : s.Punctual) {timer : Timer}
    (hfuture : s.autoDisableFuture = some timer) (hdue : timer.due ≤ s.uptime) :
    Punctual { s with autoDisableFuture := none, fired := some timer.disableAt } where
  lease := hs.lease
  due _ h := by cases h
  fired_le d hd := by
    obtain rfl := Option.some.inj hd
    have hover := hs.due timer hfuture
    show timer.disableAt ≤ s.now
    omega
  endsLease := hs.endsLease
  not_tooEarly := hs.not_tooEarly

/-- The task of an earlier lease ends. -/
theorem Base.endTask (hs : s.Base) {d : ℕ} (hfired : s.fired = some d)
    (hd : s.autoDisableAtMs ≠ d) : Base { s with fired := none } where
  armed hfree hpos := by
    rcases hs.armed hfree hpos with hfuture | hother
    · exact .inl hfuture
    · exact absurd (Option.some.inj (hother.symm.trans hfired)) hd
  prefs := hs.prefs
  future_pos := hs.future_pos
  fired_pos _ h := by cases h

theorem Punctual.endTask (hs : s.Punctual) : Punctual { s with fired := none } where
  lease := hs.lease
  due := hs.due
  fired_le _ h := by cases h
  endsLease := hs.endsLease
  not_tooEarly := hs.not_tooEarly

/-- The task of the current lease. -/
theorem Punctual.over (hs : s.Punctual) (hbase : s.Base) {d : ℕ} (hfired : s.fired = some d)
    (hd : s.autoDisableAtMs = d) : s.lease ≤ s.now := by
  have hpos : 0 < s.autoDisableAtMs := hd ▸ hbase.fired_pos d hfired
  have hprefs := hbase.prefs (.inr hpos)
  rw [← hs.lease (hprefs ▸ hpos), hprefs, hd]
  exact hs.fired_le d hfired

/-- The new service takes up what was on disk. -/
theorem restart_base (s : AdbService) : s.restart.Base := by
  unfold AdbService.restart restoreAdbTimeoutIfNeeded
  split
  · exact .of_none rfl ‹_› rfl rfl
  rename_i hzero
  split
  · exact
      { armed := fun h ↦ by cases h
        prefs := fun h ↦ absurd h (not_or.2 ⟨Option.some_ne_none _, Nat.lt_irrefl 0⟩)
        future_pos := fun _ h ↦ by cases h
        fired_pos := fun _ h ↦ by cases h }
  · exact .of_none rfl rfl rfl rfl
  · exact
      { armed := fun _ _ ↦ .inl ⟨_, rfl, rfl⟩
        prefs := fun _ ↦ rfl
        future_pos := fun timer h ↦ Option.some.inj h ▸ Nat.pos_of_ne_zero hzero
        fired_pos := fun _ h ↦ by cases h }

/-- A restart disables only when the deadline is over. -/
theorem le_of_adbLeaseRestoreAction {disableAtMs nowMs : ℕ} {storedEnabled : Option Bool}
    (h : adbLeaseRestoreAction disableAtMs nowMs storedEnabled = .disable) :
    disableAtMs ≤ nowMs := by
  unfold adbLeaseRestoreAction at h
  split_ifs at h with hzero hle
  exact hle

theorem mem_disablesLeft {caller : Disabler} : caller ∈ s.disablesLeft ↔
    s.disabling = some (.commanding, caller) ∨ caller ∈ s.orphanedDisables := by
  unfold disablesLeft
  split
  · rename_i other h
    rw [h, List.mem_cons]
    refine or_congr_left ⟨fun heq ↦ heq ▸ rfl, fun heq ↦ ?_⟩
    cases heq
    rfl
  · rename_i hother
    exact ⟨.inr, fun h ↦ h.resolve_left (hother caller)⟩

/-- The process ends, with the deadline on disk. -/
theorem Punctual.endProcess (hs : s.Punctual) (hC : s.Timely .restart) : s.endProcess.Punctual := by
  have hdisk : s.disk.disableAtMs = s.prefs.disableAtMs := hC
  refine .of_none (fun hpos ↦ ?_) rfl rfl (fun hends ↦ ?_) hs.not_tooEarly
  · show s.disk.disableAtMs = s.lease
    rw [hdisk]
    exact hs.lease (hdisk ▸ hpos)
  · obtain ⟨caller, hcaller, hdisabling | hleft⟩ := hends
    · cases hdisabling
    · exact hs.endsLease ⟨caller, hcaller, mem_disablesLeft.1 hleft⟩

theorem Punctual.restoreAdbTimeoutIfNeeded (hs : s.Punctual) :
    s.restoreAdbTimeoutIfNeeded.Punctual := by
  unfold AdbService.restoreAdbTimeoutIfNeeded
  split
  · exact hs
  rename_i hzero
  split
  · rename_i haction
    have hle := le_of_adbLeaseRestoreAction haction
    exact hs.beginDisable fun _ ↦ hs.lease (Nat.pos_of_ne_zero hzero) ▸ hle
  · exact ⟨fun h ↦ absurd h (Nat.lt_irrefl 0), hs.due, hs.fired_le, hs.endsLease, hs.not_tooEarly⟩
  · exact
      { lease := hs.lease
        due := due_scheduleAutoDisableAt _ _
        fired_le := hs.fired_le
        endsLease := hs.endsLease
        not_tooEarly := hs.not_tooEarly }

/-! ### The steps -/

/-- What a step does. -/
inductive Does (s : AdbService) : Event → AdbService → Prop where
  | tick (ms : ℕ) : Does s (.tick ms) { s with now := s.now + ms, uptime := s.uptime + ms }
  | setClock (ms : ℕ) : Does s (.setClock ms) { s with now := ms }
  | writePrefs : Does s .writePrefs { s with disk := s.prefs }
  | enable (id : ℕ) (timeout : ℤ) (h : s.enabling id = .idle)
      (hfresh : s.orphanedEnables id = false)
      (hserver : s.disabling.map Prod.snd ≠ some .restore) :
    Does s (.enable id timeout) (s.setEnabling id (.commanding timeout))
  | enableCommand (id : ℕ) (ok : Bool) (timeout : ℤ) (h : s.enabling id = .commanding timeout) :
    Does s (.enableCommand id ok)
      { s.setEnabling id (.polling timeout) with property := s.property || ok }
  | enableTimeout (id : ℕ) (timeout : ℤ) (h : s.enabling id = .commanding timeout) :
    Does s (.enableTimeout id)
      { s.setEnabling id (.polling timeout) with
        orphanedEnables := Function.update s.orphanedEnables id true }
  | orphanedEnable (id : ℕ) (ok : Bool) (h : s.orphanedEnables id = true) :
    Does s (.orphanedEnable id ok)
      { s with
        property := s.property || ok
        orphanedEnables := Function.update s.orphanedEnables id false }
  | enablePoll (id : ℕ) (status : AdbStatus) (timeout : ℤ) (h : s.enabling id = .polling timeout) :
    Does s (.enablePoll id status) (s.setEnabling id (.updating timeout status))
  | enableUpdate (id : ℕ) (timeout : ℤ) (status : AdbStatus)
      (h : s.enabling id = .updating timeout status) (hfree : s.disabling = none) :
    Does s (.enableUpdate id) ((s.updateAdbStatus status).setEnabling id
      (if status.enabled then .scheduling timeout else .idle))
  | enableSchedule (id : ℕ) (timeout : ℤ) (h : s.enabling id = .scheduling timeout)
      (hfree : s.disabling = none) :
    Does s (.enableSchedule id) ((s.scheduleAutoDisable timeout).setEnabling id .idle)
  | disable (hfree : s.disabling = none) : Does s .disable (s.beginDisable .request)
  | disableCommand (ok : Bool) (caller : Disabler) (h : s.disabling = some (.commanding, caller)) :
    Does s (.disableCommand ok)
      { s.disableCommand caller ok with disabling := some (.polling, caller) }
  | disableTimeout (caller : Disabler) (h : s.disabling = some (.commanding, caller)) :
    Does s .disableTimeout
      { s with
        disabling := some (.polling, caller)
        orphanedDisables := caller :: s.orphanedDisables }
  | orphanedDisable (caller : Disabler) (ok : Bool) (h : caller ∈ s.orphanedDisables) :
    Does s (.orphanedDisable caller ok)
      { s.disableCommand caller ok with
        orphanedDisables := s.orphanedDisables.erase caller }
  | disablePoll (status : AdbStatus) (caller : Disabler)
      (h : s.disabling = some (.polling, caller)) :
    Does s (.disablePoll status) { s with disabling := some (.updating status, caller) }
  | disableUpdate (status : AdbStatus) (caller : Disabler)
      (h : s.disabling = some (.updating status, caller)) :
    Does s .disableUpdate
      { s.updateAdbStatus status with disabling := some (.clearing, caller) }
  | disableClear (caller : Disabler) (h : s.disabling = some (.clearing, caller)) :
    Does s .disableClear { s.clearAdbTimer with disabling := none }
  | heartbeat (timeout : ℤ) (hfree : s.disabling = none) :
    Does s (.heartbeat timeout) (s.renewAdbLease timeout)
  | sync (status : AdbStatus) (hfree : s.disabling = none) :
    Does s (.sync status) (s.syncAdbStatusFromActivity status)
  | activityDisable : Does s .activityDisable { s with property := false }
  | fire (timer : Timer) (hfuture : s.autoDisableFuture = some timer) (hfired : s.fired = none)
      (hdue : timer.due ≤ s.uptime) :
    Does s .fire { s with autoDisableFuture := none, fired := some timer.disableAt }
  | runTimer (d : ℕ) (hfired : s.fired = some d) (hfree : s.disabling = none)
      (hd : s.autoDisableAtMs = d) : Does s .runTimer ({ s with fired := none }.beginDisable .timer)
  /-- The task of an earlier lease. -/
  | endTask (d : ℕ) (hfired : s.fired = some d) (hfree : s.disabling = none)
      (hd : s.autoDisableAtMs ≠ d) : Does s .runTimer { s with fired := none }
  | restart : Does s .restart s.restart

theorem step_spec {a : Event} (h : s.step a = some t) : Does s a t := by
  cases a with
  | tick | setClock | writePrefs | activityDisable | restart =>
    obtain rfl := Option.some.inj h
    constructor
  | disable | heartbeat | sync =>
    obtain ⟨hfree, rfl⟩ := locked_eq_some_iff.1 h
    constructor
    exact hfree
  | enable id timeout =>
    obtain ⟨⟨hidle, hfresh, hserver⟩, h⟩ := Option.ite_none_right_eq_some.1 h
    obtain rfl := Option.some.inj h
    exact .enable id timeout hidle hfresh hserver
  | enableCommand id ok =>
    simp only [step] at h
    split at h <;> cases h
    exact .enableCommand id ok _ ‹_›
  | enableTimeout id =>
    simp only [step] at h
    split at h <;> cases h
    exact .enableTimeout id _ ‹_›
  | orphanedEnable id ok =>
    obtain ⟨horphaned, h⟩ := Option.ite_none_right_eq_some.1 h
    obtain rfl := Option.some.inj h
    exact .orphanedEnable id ok horphaned
  | enablePoll id status =>
    simp only [step] at h
    split at h <;> cases h
    exact .enablePoll id status _ ‹_›
  | enableUpdate id =>
    simp only [step] at h
    split at h
    · rename_i timeout status hupdating
      obtain ⟨hfree, rfl⟩ := locked_eq_some_iff.1 h
      exact .enableUpdate id timeout status hupdating hfree
    · cases h
  | enableSchedule id =>
    simp only [step] at h
    split at h
    · rename_i timeout hscheduling
      obtain ⟨hfree, rfl⟩ := locked_eq_some_iff.1 h
      exact .enableSchedule id timeout hscheduling hfree
    · cases h
  | disableCommand ok =>
    simp only [step] at h
    split at h <;> cases h
    exact .disableCommand ok _ ‹_›
  | disableTimeout =>
    simp only [step] at h
    split at h <;> cases h
    exact .disableTimeout _ ‹_›
  | orphanedDisable caller ok =>
    obtain ⟨horphaned, h⟩ := Option.ite_none_right_eq_some.1 h
    obtain rfl := Option.some.inj h
    exact .orphanedDisable caller ok horphaned
  | disablePoll status =>
    simp only [step] at h
    split at h <;> cases h
    exact .disablePoll status _ ‹_›
  | disableUpdate =>
    simp only [step] at h
    split at h <;> cases h
    exact .disableUpdate _ _ ‹_›
  | disableClear =>
    simp only [step] at h
    split at h <;> cases h
    exact .disableClear _ ‹_›
  | fire =>
    simp only [step] at h
    split at h
    · rename_i timer hfuture hfired
      obtain ⟨hdue, h⟩ := Option.ite_none_right_eq_some.1 h
      obtain rfl := Option.some.inj h
      exact .fire timer hfuture hfired hdue
    · cases h
  | runTimer =>
    simp only [step] at h
    split at h
    · rename_i d hfired
      obtain ⟨hfree, rfl⟩ := locked_eq_some_iff.1 h
      split_ifs with hd
      · exact .runTimer d hfired hfree hd
      · exact .endTask d hfired hfree hd
    · cases h

theorem Base.step {a : Event} (hs : s.Base) (ht : s.step a = some t) : t.Base := by
  cases step_spec ht with
  | tick | setClock => exact ⟨hs.armed, hs.prefs, hs.future_pos, hs.fired_pos⟩
  | writePrefs | enable | enableCommand | enableTimeout | orphanedEnable | enablePoll | enableUpdate
  | activityDisable | orphanedDisable => exact ⟨hs.armed, hs.prefs, hs.future_pos, hs.fired_pos⟩
  | enableSchedule id timeout h hfree =>
    have hlease := hs.scheduleAutoDisable timeout
    exact ⟨hlease.armed, hlease.prefs, hlease.future_pos, hlease.fired_pos⟩
  | disable => exact hs.beginDisable .request
  | disableCommand | disableTimeout | disablePoll | disableUpdate =>
    exact ⟨(fun h ↦ by cases h), fun h ↦ hs.prefs (h.imp_left fun h ↦ by cases h), hs.future_pos,
      hs.fired_pos⟩
  | disableClear =>
    exact
      { armed := fun _ h ↦ absurd h (Nat.lt_irrefl 0)
        prefs := fun _ ↦ rfl
        future_pos := hs.future_pos
        fired_pos := hs.fired_pos }
  | heartbeat timeout hfree =>
    unfold renewAdbLease
    split
    · exact hs
    · exact hs.scheduleAutoDisable timeout
  | sync status hfree => exact hs.syncAdbStatusFromActivity status
  | fire timer hfuture hfired hdue => exact hs.fire hfuture hfired
  | runTimer =>
    exact
      { armed := fun h ↦ by cases h
        prefs := fun h ↦ hs.prefs (h.imp_left fun h ↦ by cases h)
        future_pos := fun _ h ↦ by cases h
        fired_pos := fun _ h ↦ by cases h }
  | endTask d hfired hfree hd => exact hs.endTask hfired hd
  | restart => exact restart_base s

theorem Punctual.step {a : Event} (hs : s.Punctual) (hbase : s.Base) (hC : s.Timely a)
    (ht : s.step a = some t) : t.Punctual := by
  cases step_spec ht with
  | tick ms =>
    refine ⟨hs.lease, fun timer h ↦ ?_, fun d h ↦ ?_, fun h ↦ ?_, hs.not_tooEarly⟩
    · have hdue := hs.due timer h
      show timer.disableAt + (s.uptime + ms) ≤ s.now + ms + timer.due
      omega
    · exact Nat.le_add_right_of_le (hs.fired_le d h)
    · exact Nat.le_add_right_of_le (hs.endsLease h)
  | setClock ms =>
    -- The clock is set forward, or nobody waits for it.
    have hle : s.TimerPending → s.now ≤ ms := hC
    refine ⟨hs.lease, fun timer h ↦ ?_, fun d h ↦ ?_, fun h ↦ ?_, hs.not_tooEarly⟩
    · have hdue := hs.due timer h
      have hle := hle (.inl (h ▸ Option.some_ne_none timer))
      show timer.disableAt + s.uptime ≤ ms + timer.due
      omega
    · exact Nat.le_trans (hs.fired_le d h) (hle (.inr (.inl (h ▸ Option.some_ne_none d))))
    · exact Nat.le_trans (hs.endsLease h) (hle (.inr (.inr h)))
  | writePrefs | enable | enableCommand | enableTimeout | orphanedEnable | enablePoll | enableUpdate
  | activityDisable =>
    exact hs.keepsTimer ⟨rfl, rfl, rfl, rfl, rfl, rfl, rfl, rfl, rfl⟩ fun _ h ↦ h
  | enableSchedule id timeout h hfree =>
    exact (hs.scheduleAutoDisable hfree (hC trivial) timeout).keepsTimer
      ⟨rfl, rfl, rfl, rfl, rfl, rfl, rfl, rfl, rfl⟩ fun _ h ↦ h
  | disable => exact hs.beginDisable fun h ↦ absurd h Bool.false_ne_true
  | disableCommand ok caller h =>
    exact ⟨hs.lease, hs.due, hs.fired_le,
      fun hends ↦ hs.endsLease (hends.mono (fun _ h ↦ by cases h) fun _ h ↦ h),
      hs.tooEarly_disableCommand (.inl h) ok⟩
  | disableTimeout caller h =>
    -- The command goes on; the lease is over if nobody asked for it.
    refine ⟨hs.lease, hs.due, hs.fired_le, fun hends ↦ ?_, hs.not_tooEarly⟩
    obtain ⟨other, hother, hdisabling | horphaned⟩ := hends
    · cases hdisabling
    · obtain rfl | horphaned := List.mem_cons.1 horphaned
      · exact hs.endsLease ⟨other, hother, .inl h⟩
      · exact hs.endsLease ⟨other, hother, .inr horphaned⟩
  | orphanedDisable caller ok h =>
    exact ⟨hs.lease, hs.due, hs.fired_le,
      fun hends ↦ hs.endsLease (hends.mono (fun _ h ↦ h) fun _ h ↦ List.mem_of_mem_erase h),
      hs.tooEarly_disableCommand (.inr h) ok⟩
  | disablePoll | disableUpdate =>
    exact ⟨hs.lease, hs.due, hs.fired_le,
      fun hends ↦ hs.endsLease (hends.mono (fun _ h ↦ by cases h) fun _ h ↦ h), hs.not_tooEarly⟩
  | disableClear =>
    exact ⟨fun h ↦ absurd h (Nat.lt_irrefl 0), hs.due, hs.fired_le,
      fun hends ↦ hs.endsLease (hends.mono (fun _ h ↦ by cases h) fun _ h ↦ h), hs.not_tooEarly⟩
  | heartbeat timeout hfree =>
    unfold renewAdbLease
    split
    · exact hs
    · rename_i henabled
      rw [Bool.not_eq_true', Bool.not_eq_false] at henabled
      exact hs.scheduleAutoDisable hfree (hC henabled) timeout
  | sync status hfree => exact hs.syncAdbStatusFromActivity hfree hC
  | fire timer hfuture hfired hdue => exact hs.fire hfuture hdue
  | runTimer d hfired hfree hd =>
    exact hs.endTask.beginDisable fun _ ↦ hs.over hbase hfired hd
  | endTask => exact hs.endTask
  | restart => exact (hs.endProcess hC).restoreAdbTimeoutIfNeeded

/-! ### Leases -/

theorem exists_update {P : Enabling → Prop} {enabling : ℕ → Enabling} {id : ℕ}
    (h : ∃ id, P (enabling id)) (he : P (enabling id) → P e) :
    ∃ other, P (Function.update enabling id e other) := by
  obtain ⟨other, hother⟩ := h
  refine ⟨other, ?_⟩
  by_cases hid : other = id
  · subst hid
    rw [Function.update_self]
    exact he hother
  · rw [Function.update_of_ne hid]
    exact hother

theorem exists_update_self {P : Enabling → Prop} (enabling : ℕ → Enabling) (id : ℕ) (he : P e) :
    ∃ other, P (Function.update enabling id e other) :=
  ⟨id, by rwa [Function.update_self]⟩

/-- There is a lease, or one is about to be granted. -/
def Granted (s : AdbService) : Prop :=
  0 < s.prefs.disableAtMs ∨ ∃ id, (s.enabling id).Granting

/-- A disable leaves ADB on, as far as it has come. -/
def Sees (s : AdbService) : Disabling → Prop
  | .commanding => False
  | .polling => s.property = true
  | .updating status => status.enabled = true ∨ s.property = true
  | .clearing => s.On

/-- While ADB is on, there is a lease, or a handler that has run its command later than the disable
in progress. -/
structure Inv (s : AdbService) : Prop where
  property : s.property = true → s.prefs.enabled ≠ some false ∧ s.Granted ∨ s.Checks
  enabled : s.adbStatus.enabled = true → s.Granted ∨ s.disabling ≠ none ∨ s.Checks
  disable : ∀ p byTimer, s.disabling = some (p, byTimer) → s.Sees p → s.Checks

theorem start_inv (now uptime : ℕ) : (start now uptime).Inv :=
  ⟨fun h ↦ absurd h Bool.false_ne_true, fun h ↦ absurd h Bool.false_ne_true, fun _ _ h ↦ by cases h⟩

/-- A handler is going to store a status check: it sees to everything. -/
theorem Inv.of_checks (h : s.Checks) : s.Inv :=
  ⟨fun _ ↦ .inr h, fun _ ↦ .inr (.inr h), fun _ _ _ _ ↦ h⟩

/-- A section outside a disable that leaves the status as it is and does not set the property. -/
theorem Inv.mono (hs : s.Inv) (hproperty : t.property = true → s.property = true)
    (hstatus : t.adbStatus = s.adbStatus) (henabled : t.prefs.enabled = s.prefs.enabled)
    (hdisabling : t.disabling = s.disabling) (hgranted : s.Granted → t.Granted)
    (hchecks : s.Checks → t.Checks) : t.Inv where
  property hp := by
    rw [henabled]
    exact (hs.property (hproperty hp)).imp (And.imp_right hgranted) hchecks
  enabled he := by
    rw [hdisabling]
    exact (hs.enabled (hstatus ▸ he)).imp hgranted (Or.imp_right hchecks)
  disable p byTimer hd hsees := by
    refine hchecks (hs.disable p byTimer (hdisabling ▸ hd) ?_)
    cases p with
    | commanding => exact hsees
    | polling => exact hproperty hsees
    | updating status => exact hsees.imp_right hproperty
    | clearing => exact hsees.imp (fun he ↦ hstatus ▸ he) hproperty

/-- A new lease. -/
theorem Inv.scheduleAutoDisable (hs : s.Inv) (timeoutSeconds : ℤ) :
    (s.scheduleAutoDisable timeoutSeconds).Inv :=
  hs.mono id rfl rfl rfl (fun _ ↦ .inl (s.disableAt_pos timeoutSeconds)) id

/-- A handler of `/adb/enable` stores its status check. -/
theorem Inv.enableUpdate {id : ℕ} {timeout : ℤ} {status : AdbStatus} (hfree : s.disabling = none)
    (hC : status.enabled = false → s.property = false) :
    ((s.updateAdbStatus status).setEnabling id
      (if status.enabled then .scheduling timeout else .idle)).Inv := by
  have hdisable : ∀ p byTimer, s.disabling ≠ some (p, byTimer) :=
    fun p byTimer h ↦ absurd (hfree.symm.trans h) (Option.some_ne_none _).symm
  rcases hstatus : status.enabled with _ | _
  · refine ⟨fun hp ↦ ?_, fun he ↦ ?_, fun p byTimer h ↦ absurd h (hdisable p byTimer)⟩
    · exact absurd ((hC hstatus).symm.trans hp) Bool.false_ne_true
    · exact absurd (hstatus.symm.trans he) Bool.false_ne_true
  · -- The handler is going to grant a lease.
    have hgranting :
        ∃ other, (Function.update s.enabling id (.scheduling timeout) other).Granting :=
      exists_update_self s.enabling id trivial
    refine ⟨fun _ ↦ .inl ⟨?_, .inr hgranting⟩, fun _ ↦ .inl (.inr hgranting),
      fun p byTimer h ↦ absurd h (hdisable p byTimer)⟩
    show some status.enabled ≠ some false
    rw [hstatus]
    exact fun h ↦ absurd (Option.some.inj h).symm Bool.false_ne_true

/-- A status from the activity. -/
theorem inv_syncAdbStatusFromActivity (hbase : s.Base) (hfree : s.disabling = none)
    {status : AdbStatus} (hC : status.enabled = false → s.property = false) :
    (s.syncAdbStatusFromActivity status).Inv := by
  have hdisable : ∀ {t : AdbService}, t.disabling = s.disabling →
      ∀ p byTimer, t.disabling = some (p, byTimer) → t.Sees p → t.Checks := by
    intro t ht p byTimer h
    exact absurd (hfree.symm.trans (ht.symm.trans h)) (Option.some_ne_none _).symm
  have hgranted : ∀ {t : AdbService}, t.prefs.enabled = some status.enabled →
      status.enabled = true → t.Granted → t.disabling = s.disabling → t.Inv := by
    intro t hprefs hstatus hgranted hd
    refine ⟨fun _ ↦ .inl ⟨?_, hgranted⟩, fun _ ↦ .inl hgranted, hdisable hd⟩
    rw [hprefs, hstatus]
    exact fun h ↦ absurd (Option.some.inj h).symm Bool.false_ne_true
  unfold AdbService.syncAdbStatusFromActivity
  dsimp only
  split_ifs with hstatus hover
  · exact hgranted rfl hstatus (.inl (disableAt_pos _ _)) rfl
  · -- The lease is not over.
    have hpos : 0 < s.autoDisableAtMs := Nat.zero_lt_of_lt (Nat.lt_of_not_le hover)
    exact hgranted rfl hstatus (.inl (hbase.prefs (.inl hfree) ▸ hpos)) rfl
  · have hoff : status.enabled = false := eq_false_of_ne_true hstatus
    refine ⟨fun hp ↦ ?_, fun he ↦ ?_, hdisable rfl⟩
    · exact absurd ((hC hoff).symm.trans hp) Bool.false_ne_true
    · exact absurd he hstatus

/-- A disable begins. -/
theorem Inv.beginDisable (hs : s.Inv) (caller : Disabler) : (s.beginDisable caller).Inv :=
  ⟨hs.property, fun _ ↦ .inr (.inl (Option.some_ne_none _)),
    fun p caller' h hsees ↦ by cases h; exact hsees.elim⟩

/-- The process ends; what is on disk says that there is a lease, if the property is set. -/
theorem Inv.endProcess (hs : s.Inv) (hC : s.Keeps .restart) : s.endProcess.Inv := by
  refine ⟨fun hp ↦ .inl ?_, fun he ↦ absurd he Bool.false_ne_true, fun _ _ h ↦ by cases h⟩
  obtain ⟨hdisk, hnone⟩ := hC hp
  rcases hs.property hp with ⟨henabled, hpos | ⟨id, hid⟩⟩ | ⟨id, hid⟩
  · refine ⟨?_, .inl ?_⟩
    · show s.disk.enabled ≠ some false
      rw [hdisk]
      exact henabled
    · show 0 < s.disk.disableAtMs
      rw [hdisk]
      exact hpos
  · exact absurd hid (hnone id).2
  · exact absurd hid (hnone id).1

/-- A new service picks the lease up. -/
theorem Inv.restoreAdbTimeoutIfNeeded (hs : s.Inv) (hstatus : s.adbStatus.enabled = false)
    (hfree : s.disabling = none) (hidle : ∀ id, s.enabling id = .idle) :
    s.restoreAdbTimeoutIfNeeded.Inv := by
  have hstored : s.property = true → s.prefs.enabled ≠ some false := by
    intro hp
    refine ((hs.property hp).resolve_right ?_).1
    rintro ⟨id, hid⟩
    rw [hidle id] at hid
    exact hid
  have hdisable : ∀ p caller, s.disabling ≠ some (p, caller) :=
    fun p caller h ↦ absurd (hfree.symm.trans h) (Option.some_ne_none _).symm
  unfold AdbService.restoreAdbTimeoutIfNeeded
  split
  · exact hs
  rename_i hzero
  split
  · exact hs.beginDisable .restore
  · rename_i haction
    have hoff : s.prefs.enabled = some false := by
      unfold adbLeaseRestoreAction at haction
      split_ifs at haction with hover hoff
      exact hoff
    exact ⟨fun hp ↦ absurd hoff (hstored hp),
      fun he ↦ absurd (hstatus.symm.trans he) Bool.false_ne_true,
      fun p caller h ↦ absurd h (hdisable p caller)⟩
  · have hgranted : 0 < s.prefs.disableAtMs := Nat.pos_of_ne_zero hzero
    refine ⟨fun hp ↦ .inl ⟨?_, .inl hgranted⟩, fun _ ↦ .inl (.inl hgranted),
      fun p caller h ↦ absurd h (hdisable p caller)⟩
    show some (s.prefs.enabled.getD true) ≠ some false
    rcases h : s.prefs.enabled with _ | _ | _
    · exact fun h ↦ absurd (Option.some.inj h).symm Bool.false_ne_true
    · exact absurd h (hstored hp)
    · exact fun h ↦ absurd (Option.some.inj h).symm Bool.false_ne_true

theorem Inv.step {a : Event} (hs : s.Inv) (hbase : s.Base) (hC : s.Keeps a)
    (ht : s.step a = some t) : t.Inv := by
  cases step_spec ht with
  | tick | setClock | writePrefs | fire | endTask => exact hs.mono id rfl rfl rfl id id
  | enable id timeout hidle =>
    refine hs.mono (fun h ↦ h) rfl rfl rfl (Or.imp_right fun h ↦ exists_update h fun hg ↦ ?_)
      fun h ↦ exists_update h fun hc ↦ ?_
    · rw [hidle] at hg
      exact hg.elim
    · rw [hidle] at hc
      exact hc.elim
  | enableCommand | enableTimeout | enablePoll =>
    exact .of_checks (exists_update_self s.enabling _ trivial)
  | orphanedEnable id ok h =>
    by_cases hchecks : s.Checks
    · exact .of_checks hchecks
    · refine hs.mono (fun hp ↦ ?_) rfl rfl rfl (fun h ↦ h) fun h ↦ h
      obtain hp | hok := (Bool.or_eq_true_iff ..).1 hp
      · exact hp
      · exact (hC hok).resolve_right hchecks
  | enableUpdate id timeout status h hfree => exact .enableUpdate hfree (hC timeout status h)
  | enableSchedule id timeout hscheduling hfree =>
    refine hs.mono (fun h ↦ h) rfl rfl rfl (fun _ ↦ .inl (s.disableAt_pos timeout))
      fun h ↦ exists_update h fun hc ↦ ?_
    have hc : (s.enabling id).Checking := hc
    rw [hscheduling] at hc
    exact hc.elim
  | disable => exact hs.beginDisable .request
  | runTimer =>
    have hfired : Inv { s with fired := none } := hs.mono id rfl rfl rfl id id
    exact hfired.beginDisable .timer
  | disableCommand ok caller h =>
    -- The property is reset.
    have hoff : (s.property && !ok) ≠ true := by
      intro hp
      obtain ⟨hp, hnot⟩ := (Bool.and_eq_true_iff ..).1 hp
      rw [hC hp] at hnot
      exact absurd hnot Bool.false_ne_true
    exact ⟨fun hp ↦ absurd hp hoff, fun _ ↦ .inr (.inl (Option.some_ne_none _)),
      fun p caller h hsees ↦ by cases h; exact absurd hsees hoff⟩
  | disableTimeout caller h =>
    have hoff : s.property ≠ true := ne_true_of_eq_false hC
    exact ⟨fun hp ↦ absurd hp hoff, fun _ ↦ .inr (.inl (Option.some_ne_none _)),
      fun p caller h hsees ↦ by cases h; exact absurd hsees hoff⟩
  | orphanedDisable caller ok h =>
    exact hs.mono (fun hp ↦ ((Bool.and_eq_true_iff ..).1 hp).1) rfl rfl rfl id id
  | disablePoll status caller h =>
    refine ⟨hs.property, fun _ ↦ .inr (.inl (Option.some_ne_none _)), fun p caller' h' hsees ↦ ?_⟩
    cases h'
    exact hs.disable _ _ h (hsees.elim (fun he ↦ hC he) id)
  | disableUpdate status caller h =>
    have hchecks := hs.disable _ _ h
    refine ⟨fun hp ↦ .inr (hchecks (.inr hp)), fun _ ↦ .inr (.inl (Option.some_ne_none _)),
      fun p caller' h' hsees ↦ ?_⟩
    cases h'
    exact hchecks hsees
  | disableClear caller h =>
    have hchecks := hs.disable _ _ h
    exact ⟨fun hp ↦ .inr (hchecks (.inr hp)), fun he ↦ .inr (.inr (hchecks (.inl he))),
      fun p caller' h' ↦ by cases h'⟩
  | heartbeat timeout hfree =>
    unfold renewAdbLease
    split
    · exact hs
    · exact hs.scheduleAutoDisable timeout
  | sync status hfree => exact inv_syncAdbStatusFromActivity hbase hfree hC
  | activityDisable => exact hs.mono (fun hp ↦ absurd hp Bool.false_ne_true) rfl rfl rfl id id
  | restart => exact (hs.endProcess hC).restoreAdbTimeoutIfNeeded rfl rfl fun _ ↦ rfl

/-- With nothing in flight, there is a lease, and its timer is armed. -/
theorem Inv.leased (hs : s.Inv) (hbase : s.Base) (hquiet : s.Quiescent) (hon : s.On) :
    s.Leased := by
  have hnone : ∀ {P : Enabling → Prop}, ¬P .idle → ¬∃ id, P (s.enabling id) := by
    rintro P hP ⟨id, hid⟩
    rw [hquiet.enabling id] at hid
    exact hP hid
  have hchecks : ¬s.Checks := hnone id
  have hgranted : s.Granted := by
    rcases hon with he | hp
    · rcases hs.enabled he with hg | hd | hc
      · exact hg
      · exact absurd hquiet.disabling hd
      · exact absurd hc hchecks
    · exact ((hs.property hp).resolve_right hchecks).2
  have hprefs := hbase.prefs (.inl hquiet.disabling)
  have hpos : 0 < s.autoDisableAtMs := hprefs ▸ hgranted.resolve_right (hnone id)
  rcases hbase.armed hquiet.disabling hpos with ⟨timer, htimer, hd⟩ | hfired
  · exact ⟨timer, hd ▸ hpos, htimer, by rw [hquiet.disk, hprefs, hd]⟩
  · exact absurd (hquiet.fired.symm.trans hfired) (Option.some_ne_none _).symm

/-- **The wireless ADB lease.** Over any interleaving of requests, status messages, timer tasks and
restarts: while the wall clock is not set back under a timer, restarts find the deadline on disk and
no lease is granted over a disable that an earlier one has left, ADB is never disabled before the
end of the latest lease without a request; and as long as the root commands, their status checks and
the restarts are as `Keeps` says, then whenever nothing is in flight and ADB is on, a timer is armed
and its deadline is persisted. -/
theorem adb_lease_safety {now uptime : ℕ} {es : List Event}
    (h : exec step (start now uptime) es = some t) :
    (Along step Timely (start now uptime) es → t.tooEarly = false) ∧
      (Along step Keeps (start now uptime) es → t.Quiescent → t.On → t.Leased) := by
  refine ⟨fun hC ↦ ?_, fun hC hquiet hon ↦ ?_⟩
  · have hpunctual : t.Base ∧ t.Punctual :=
      exec_invariant_along (P := fun s ↦ s.Base ∧ s.Punctual)
        (fun _ _ _ hC hs ht ↦ ⟨hs.1.step ht, hs.2.step hs.1 hC ht⟩) hC
        ⟨start_base now uptime, start_punctual now uptime⟩ h
    exact hpunctual.2.not_tooEarly
  · have hinv : t.Base ∧ t.Inv :=
      exec_invariant_along (P := fun s ↦ s.Base ∧ s.Inv)
        (fun _ _ _ hC hs ht ↦ ⟨hs.1.step ht, hs.2.step hs.1 hC ht⟩) hC
        ⟨start_base now uptime, start_inv now uptime⟩ h
    exact hinv.2.leased hinv.1 hquiet hon

/-- ADB listens on the default port. -/
def listeningStatus : AdbStatus :=
  ⟨true, true, some adbTcpDefaultPort⟩

/-- A lease of a minute is granted. -/
def grantRun : List Event :=
  [.enable 0 60, .enableCommand 0 true, .enablePoll 0 listeningStatus, .enableUpdate 0,
    .enableSchedule 0, .writePrefs]

theorem quiescent_of_grantRun (hdisabling : s.disabling = none) (hfired : s.fired = none)
    (henabling : s.enabling = Function.update (Function.update (Function.update (Function.update
      (Function.update (fun _ ↦ .idle) 0 (.commanding 60)) 0 (.polling 60)) 0
      (.updating 60 listeningStatus)) 0 (.scheduling 60)) 0 .idle) (hdisk : s.disk = s.prefs) :
    s.Quiescent := by
  refine ⟨hdisabling, hfired, fun id ↦ ?_, hdisk⟩
  rw [henabling]
  simp only [Function.update_idem, Function.update_apply]
  split <;> rfl

theorem grantRun_leased : ∃ t, exec step (start 0 0) grantRun = some t ∧ t.tooEarly = false ∧
    t.Leased := by
  obtain ⟨t, ht⟩ : ∃ t, exec step (start 0 0) grantRun = some t := ⟨_, rfl⟩
  have htimely : Along step Timely (start 0 0) grantRun :=
    Along.cons (fun h ↦ h.elim) rfl (Along.cons (fun h ↦ h.elim) rfl
      (Along.cons (fun h ↦ h.elim) rfl (Along.cons (fun h ↦ h.elim) rfl
        (Along.cons (fun _ _ h ↦ by cases h) rfl
          (Along.cons (fun h ↦ h.elim) rfl (along_nil _))))))
  have hupdate : ∀ timeout status, Enabling.updating 60 listeningStatus = .updating timeout status →
      status.enabled = false → true = false := by
    intro timeout status h hoff
    cases h
    exact absurd hoff Bool.false_ne_true.symm
  have hkeeps : Along step Keeps (start 0 0) grantRun :=
    Along.cons trivial rfl (Along.cons trivial rfl (Along.cons trivial rfl
      (Along.cons hupdate rfl (Along.cons trivial rfl (Along.cons trivial rfl (along_nil _))))))
  obtain ⟨hearly, hleased⟩ := adb_lease_safety ht
  obtain rfl := Option.some.inj ht
  exact ⟨_, rfl, hearly htimely,
    hleased hkeeps (quiescent_of_grantRun rfl rfl rfl rfl) (.inl rfl)⟩

/-- A disable fails, command and all: its status check says so, and the lease is gone. A lease is
renewed for another minute, the process ends before this is on disk, and the timer of the new
service disables ADB half a minute early. -/
theorem lease_lost :
    (∃ t, exec step (start 0 0) (grantRun ++ [.disable, .disableCommand false,
        .disablePoll listeningStatus, .disableUpdate, .disableClear, .writePrefs]) = some t ∧
      t.Quiescent ∧ t.On ∧ ¬t.Leased) ∧
    ∃ t, exec step (start 0 0) (grantRun ++ [.tick 30000, .heartbeat 60,
        .restart, .tick 30000, .fire, .runTimer,
        .disableCommand true]) = some t ∧ t.tooEarly = true := by
  refine ⟨⟨_, rfl, quiescent_of_grantRun rfl rfl rfl rfl, .inl rfl, ?_⟩, _, rfl, rfl⟩
  rintro ⟨timer, -, hfuture, -⟩
  cases hfuture

end AdbService

end AllRelay.Phone
