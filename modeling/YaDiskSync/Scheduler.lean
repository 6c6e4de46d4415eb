import YaDiskSync.ServiceRuntime

/-! The daily scheduler: sleep until the next instant of the schedule, request a run, repeat.
Readings of the clock are in nanoseconds. -/
namespace YaDiskSync

def nanosPerSecond : Int := 1000000000

def nanosPerDay : Int := 86400*nanosPerSecond

/-- `Time::from_hms` takes no other hours and minutes. -/
structure DailyUtcSchedule where
  hour : Fin 24
  minute : Fin 60
  deriving DecidableEq

namespace DailyUtcSchedule

def invalidScheduleTime (value : Str) : Str := "invalid scheduler time: ".toList ++ value

def parse (value : Str) : Except Str DailyUtcSchedule :=
  match value.span (· ≠ ':') with
  | (_,[]) => .error (invalidScheduleTime value)
  | (hour,_ :: minute) =>
    match parseU8 hour, parseU8 minute with
    | some hour, some minute =>
      if h : hour < 24 ∧ minute < 60 then .ok ⟨⟨hour,h.1⟩,⟨minute,h.2⟩⟩
      else .error (invalidScheduleTime value)
    | _, _ => .error (invalidScheduleTime value)

/-- The time since midnight. -/
def startTime (schedule : DailyUtcSchedule) : Int :=
  (schedule.hour.val*3600+schedule.minute.val*60)*nanosPerSecond

def nextAfter (schedule : DailyUtcSchedule) (now : Int) : Int :=
  let candidate := now/nanosPerDay*nanosPerDay+schedule.startTime
  if candidate > now then candidate else candidate+nanosPerDay

/-- An instant of the schedule. -/
def IsInstant (schedule : DailyUtcSchedule) (instant : Int) : Prop :=
  instant % nanosPerDay = schedule.startTime

end DailyUtcSchedule

/-- A duration of whole seconds, in nanoseconds. -/
def stdDurationUntil (now next : Int) : Int :=
  max (wholeSeconds (next-now)) 0*nanosPerSecond

/-- The end of a sleep: it comes `overshoot` after the duration that was asked for, and the loop
reads the clock again `delay` later, when its request has been answered. -/
structure Wake where
  overshoot : Nat
  delay : Nat
  deriving DecidableEq

/-- A scheduled request, with the instant that the loop slept for. -/
structure ScheduledRequest where
  instant : Int
  issuedAt : Int
  deriving DecidableEq

namespace DailyUtcSchedule

variable (schedule : DailyUtcSchedule)

def wokenAt (now : Int) (wake : Wake) : Int :=
  now+stdDurationUntil now (schedule.nextAfter now)+wake.overshoot

/-- The requests of the loop whose first reading of the clock is `now`. It is shut down in the
sleep after the last wake. -/
def schedulerLoop : Int → List Wake → List ScheduledRequest
  | _, [] => []
  | now, wake :: wakes =>
    let issuedAt := schedule.wokenAt now wake
    ⟨schedule.nextAfter now,issuedAt⟩ :: schedulerLoop (issuedAt+wake.delay) wakes

/-- The sleeps of the loop that end: the reading of the clock before, and the end. -/
def sleeps : Int → List Wake → List (Int × Wake)
  | _, [] => []
  | now, wake :: wakes => (now,wake) :: sleeps (schedule.wokenAt now wake+wake.delay) wakes

/-- The reading of the clock before the sleep in which the loop is shut down. -/
def lastReading : Int → List Wake → Int
  | now, [] => now
  | now, wake :: wakes => lastReading (schedule.wokenAt now wake+wake.delay) wakes

end DailyUtcSchedule

def runSchedulerUntil (config : ScheduleConfig) (start : Int) (wakes : List Wake) :
    Except Str (List ScheduledRequest) :=
  if !config.enabled then .ok []
  else do
    let schedule ← DailyUtcSchedule.parse config.startTimeUtc
    return schedule.schedulerLoop start wakes

namespace DailyUtcSchedule

/-- At most one request for an instant, none before it, and one for each instant when no sleep is
late by a day less a second. -/
structure Punctual (schedule : DailyUtcSchedule) (start : Int) (wakes : List Wake)
    (requests : List ScheduledRequest) : Prop where
  once : (requests.map (·.instant)).Nodup
  notEarly : ∀ request ∈ requests, request.instant ≤ request.issuedAt
  missesNone : (∀ wake ∈ wakes, (wake.overshoot+wake.delay : Int) < nanosPerDay-nanosPerSecond) →
    ∀ instant, schedule.IsInstant instant → start < instant →
      instant ≤ schedule.lastReading start wakes → ∃ request ∈ requests, request.instant = instant

/-- What is left of the second that an instant lies in. -/
def restOfSecond (now : Int) : Int := -now % nanosPerSecond

/-- No sleep ends sooner than the rest of the second in which it began, after its duration. -/
def SleepsOutSeconds (schedule : DailyUtcSchedule) (start : Int) (wakes : List Wake) :
    Prop :=
  ∀ sleep ∈ schedule.sleeps start wakes, restOfSecond sleep.1 ≤ sleep.2.overshoot

section Instants

variable {schedule : DailyUtcSchedule} {now instant : Int}

theorem startTime_bounds (schedule : DailyUtcSchedule) :
    0 ≤ schedule.startTime ∧ schedule.startTime < nanosPerDay := by
  have hh := schedule.hour.isLt
  have hm := schedule.minute.isLt
  unfold startTime nanosPerDay nanosPerSecond
  omega

theorem startTime_wholeSeconds (schedule : DailyUtcSchedule) :
    schedule.startTime % nanosPerSecond = 0 := Int.mul_emod_left _ _

theorem lt_nextAfter (schedule : DailyUtcSchedule) (now : Int) :
    now < schedule.nextAfter now := by
  have hb := schedule.startTime_bounds
  unfold nextAfter nanosPerDay nanosPerSecond at *
  dsimp only
  split <;> omega

theorem nextAfter_le (schedule : DailyUtcSchedule) (now : Int) :
    schedule.nextAfter now ≤ now+nanosPerDay := by
  have hb := schedule.startTime_bounds
  unfold nextAfter nanosPerDay nanosPerSecond at *
  dsimp only
  split <;> omega

theorem isInstant_nextAfter (schedule : DailyUtcSchedule) (now : Int) :
    schedule.IsInstant (schedule.nextAfter now) := by
  have hb := schedule.startTime_bounds
  unfold IsInstant nextAfter nanosPerDay nanosPerSecond at *
  dsimp only
  split <;> omega

/-- Two instants are the same or a day apart. -/
theorem IsInstant.le_of_lt_add {first second : Int} (hf : schedule.IsInstant first)
    (hs : schedule.IsInstant second) (h : first < second+nanosPerDay) : first ≤ second := by
  unfold IsInstant nanosPerDay nanosPerSecond at *
  omega

theorem nextAfter_le_instant (hi : schedule.IsInstant instant) (h : now < instant) :
    schedule.nextAfter now ≤ instant := by
  refine (schedule.isInstant_nextAfter now).le_of_lt_add hi ?_
  have := schedule.nextAfter_le now
  omega

/-- Rounding the duration down leaves the sleep short by the rest of the second. -/
theorem wokenAt_eq (schedule : DailyUtcSchedule) (now : Int) (wake : Wake) :
    schedule.wokenAt now wake = schedule.nextAfter now-restOfSecond now+wake.overshoot := by
  have hn : schedule.nextAfter now % nanosPerSecond = 0 := by
    have hi := schedule.isInstant_nextAfter now
    have hs := schedule.startTime_wholeSeconds
    unfold IsInstant nanosPerDay nanosPerSecond at *
    omega
  have hlt := schedule.lt_nextAfter now
  have ht : wholeSeconds (schedule.nextAfter now-now) =
      (schedule.nextAfter now-now)/nanosPerSecond :=
    Int.tdiv_eq_ediv_of_nonneg (by omega)
  rw [wokenAt,stdDurationUntil,ht]
  unfold restOfSecond nanosPerSecond at *
  omega

theorem restOfSecond_bounds (now : Int) :
    0 ≤ restOfSecond now ∧ restOfSecond now < nanosPerSecond := by
  unfold restOfSecond nanosPerSecond
  omega

theorem le_wokenAt (schedule : DailyUtcSchedule) (now : Int) (wake : Wake) :
    now ≤ schedule.wokenAt now wake := by
  unfold wokenAt stdDurationUntil nanosPerSecond
  omega

end Instants

section Loop

variable {schedule : DailyUtcSchedule}

/-- The request made at the end of a sleep. -/
def request (schedule : DailyUtcSchedule) (sleep : Int × Wake) : ScheduledRequest :=
  ⟨schedule.nextAfter sleep.1,schedule.wokenAt sleep.1 sleep.2⟩

theorem schedulerLoop_eq_map (start : Int) (wakes : List Wake) :
    schedule.schedulerLoop start wakes = (schedule.sleeps start wakes).map schedule.request := by
  induction wakes generalizing start with
  | nil => rfl
  | cons wake wakes ih =>
    rw [schedulerLoop,sleeps,List.map_cons,ih]
    rfl

/-- The clock does not go back. -/
theorem le_of_mem_sleeps {start : Int} {wakes : List Wake} {sleep : Int × Wake}
    (h : sleep ∈ schedule.sleeps start wakes) : start ≤ sleep.1 := by
  induction wakes generalizing start with
  | nil => cases h
  | cons wake wakes ih =>
    rw [sleeps,List.mem_cons] at h
    rcases h with rfl | h
    · exact le_refl _
    · have hnext := ih h
      have hwoken := schedule.le_wokenAt start wake
      omega

/-- A request is early by what its sleep falls short of the rest of the second. -/
theorem request_notEarly_iff (sleep : Int × Wake) :
    (schedule.request sleep).instant ≤ (schedule.request sleep).issuedAt ↔
      restOfSecond sleep.1 ≤ sleep.2.overshoot := by
  change schedule.nextAfter sleep.1 ≤ schedule.wokenAt sleep.1 sleep.2 ↔ _
  rw [wokenAt_eq]
  omega

/-- After a sleep that was not too short the loop looks for a later instant. -/
theorem instants_increase {start : Int} {wakes : List Wake}
    (h : schedule.SleepsOutSeconds start wakes) :
    ((schedule.schedulerLoop start wakes).map (·.instant)).Pairwise (· < ·) := by
  induction wakes generalizing start with
  | nil => exact List.Pairwise.nil
  | cons wake wakes ih =>
    rw [SleepsOutSeconds,sleeps,List.forall_mem_cons] at h
    rw [schedulerLoop,List.map_cons,List.pairwise_cons]
    refine ⟨fun instant hi => ?_,ih h.2⟩
    rw [schedulerLoop_eq_map,List.map_map] at hi
    obtain ⟨sleep,hs,rfl⟩ := List.mem_map.1 hi
    have hreached : schedule.nextAfter start ≤ schedule.wokenAt start wake :=
      (request_notEarly_iff (start,wake)).2 h.1
    have hclock := le_of_mem_sleeps hs
    have hnext : sleep.1 < (schedule.request sleep).instant := schedule.lt_nextAfter sleep.1
    change schedule.nextAfter start < (schedule.request sleep).instant
    omega

/-- The loop reads the clock again before the instant after the one it slept for. -/
theorem schedulerLoop_covers {start : Int} {wakes : List Wake}
    (h : ∀ wake ∈ wakes, (wake.overshoot+wake.delay : Int) < nanosPerDay-nanosPerSecond)
    {instant : Int} (hi : schedule.IsInstant instant) (hstart : start < instant)
    (hlast : instant ≤ schedule.lastReading start wakes) :
    ∃ request ∈ schedule.schedulerLoop start wakes, request.instant = instant := by
  induction wakes generalizing start with
  | nil =>
    rw [lastReading] at hlast
    omega
  | cons wake wakes ih =>
    rw [List.forall_mem_cons] at h
    have hfirst := nextAfter_le_instant hi hstart
    rcases hfirst.eq_or_lt with heq | hlt
    · exact ⟨_,List.mem_cons_self,heq⟩
    · have hdayLater : schedule.nextAfter start+nanosPerDay ≤ instant := by
        by_contra hnot
        have := hi.le_of_lt_add (schedule.isInstant_nextAfter start) (not_le.1 hnot)
        omega
      have hclock : schedule.wokenAt start wake+wake.delay < instant := by
        have hrest := restOfSecond_bounds start
        rw [wokenAt_eq]
        unfold nanosPerSecond at *
        omega
      obtain ⟨request,hm,heq⟩ := ih h.2 hclock hlast
      exact ⟨request,List.mem_cons_of_mem _ hm,heq⟩

theorem schedulerLoop_punctual_iff (schedule : DailyUtcSchedule) (start : Int)
    (wakes : List Wake) : schedule.Punctual start wakes (schedule.schedulerLoop start wakes) ↔
      schedule.SleepsOutSeconds start wakes := by
  constructor
  · intro h sleep hs
    have hiff : (schedule.request sleep).instant ≤ (schedule.request sleep).issuedAt ↔ _ :=
      request_notEarly_iff sleep
    apply hiff.1
    apply h.notEarly
    rw [schedulerLoop_eq_map]
    exact List.mem_map_of_mem hs
  · intro h
    refine ⟨(instants_increase h).imp ne_of_lt,fun request hm => ?_,fun hlate instant => ?_⟩
    · rw [schedulerLoop_eq_map] at hm
      obtain ⟨sleep,hs,rfl⟩ := List.mem_map.1 hm
      exact (request_notEarly_iff sleep).2 (h sleep hs)
    · exact schedulerLoop_covers hlate

end Loop

end DailyUtcSchedule

open DailyUtcSchedule

/-- The scheduler is punctual exactly when each of its sleeps lasts out the second that was cut
off its duration. -/
theorem runSchedulerUntil_punctual_iff {config : ScheduleConfig} {schedule : DailyUtcSchedule}
    (henabled : config.enabled = true)
    (hparse : DailyUtcSchedule.parse config.startTimeUtc = .ok schedule) (start : Int)
    (wakes : List Wake) :
    (∃ requests, runSchedulerUntil config start wakes = .ok requests ∧
      schedule.Punctual start wakes requests) ↔ schedule.SleepsOutSeconds start wakes := by
  have hrun : runSchedulerUntil config start wakes = .ok (schedule.schedulerLoop start wakes) := by
    rw [runSchedulerUntil,henabled,hparse]
    rfl
  rw [← schedulerLoop_punctual_iff,hrun]
  constructor
  · rintro ⟨requests,heq,h⟩
    cases heq
    exact h
  · exact fun h => ⟨_,rfl,h⟩

/-- The schedule of every night at 23:00. -/
def nightlySchedule : ScheduleConfig := ⟨true,"23:00".toList,false,true,false⟩

/-- A scheduler started on a full second, whose sleeps all end in time. -/
theorem nightlySchedule_punctual : ∃ requests,
    runSchedulerUntil nightlySchedule 0 [⟨0,5⟩,⟨3000000000,0⟩] = .ok requests ∧
      DailyUtcSchedule.Punctual ⟨23,0⟩ 0 [⟨0,5⟩,⟨3000000000,0⟩] requests :=
  (runSchedulerUntil_punctual_iff rfl rfl 0 _).2 (by
    unfold SleepsOutSeconds
    decide +kernel)

/-- Started half a second before 23:00:00, the loop asks twice before the clock is there. -/
theorem nightlySchedule_early : ¬ ∃ requests,
    runSchedulerUntil nightlySchedule (82800*nanosPerSecond-500000000) [⟨0,0⟩,⟨0,0⟩] =
      .ok requests ∧
    DailyUtcSchedule.Punctual ⟨23,0⟩ (82800*nanosPerSecond-500000000) [⟨0,0⟩,⟨0,0⟩] requests := by
  rintro ⟨requests,heq,h⟩
  have hrun : runSchedulerUntil nightlySchedule (82800*nanosPerSecond-500000000) [⟨0,0⟩,⟨0,0⟩] =
      .ok [⟨82800*nanosPerSecond,82800*nanosPerSecond-500000000⟩,
        ⟨82800*nanosPerSecond,82800*nanosPerSecond-500000000⟩] := by
    decide +kernel
  rw [hrun] at heq
  cases heq
  exact absurd h.once (by decide +kernel)

end YaDiskSync
