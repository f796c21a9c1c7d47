import ChainSettle.Semantics.Numerals
import ChainSettle.Semantics.QuietHours

/-!
When quiet hours end, and what a notification still sends during them. In a time zone of a fixed
offset the end is found right, except where start and end are the same time of day and that time is
over: then the result is in the past. Text messages and posts to Discord do not wait for the end.
-/

namespace ChainSettle

open Lib

section Clock

variable {offsetAt : String → Int → Int} {timezone : String}

theorem minuteOfDay_wallClock (offsetAt : String → Int → Int) (timezone : String) (time : Int) :
    (wallClock offsetAt timezone time).minuteOfDay =
      localTime offsetAt timezone time % msPerDay / msPerMinute := by
  unfold WallClock.minuteOfDay wallClock msPerDay msPerMinute
  simp only
  omega

/-- The years that `Date.UTC` moves into another century are long over. -/
theorem hundred_le_yearFromDay {day : Int} (h : -eraDays ≤ day) : 100 ≤ yearFromDay day := by
  have hrange : (day % eraDays).toNat < 146097 := by
    unfold eraDays
    omega
  have hyear := (year_civil_bounds hrange).1
  have hera : -1 ≤ day / eraDays := by
    unfold eraDays at h ⊢
    omega
  unfold yearFromDay dateInEra
  omega

/-- A date that is printed is read back, also when days are added to it. -/
theorem dateUTC_wallClock {time : Int}
    (h : -eraDays ≤ localTime offsetAt timezone time / msPerDay) (more hour minute : Int) :
    let clock := wallClock offsetAt timezone time
    dateUTC clock.year (clock.month - 1) (clock.day + more) hour minute =
      (localTime offsetAt timezone time / msPerDay + more) * msPerDay +
        (hour * 60 + minute) * msPerMinute := by
  have hyear := hundred_le_yearFromDay h
  have hfields := makeDay_fields (localTime offsetAt timezone time / msPerDay)
  unfold wallClock dateUTC
  simp only
  rw [if_neg (by omega), Int.add_sub_cancel]
  unfold makeDay at hfields ⊢
  congr 2
  omega

section FixedOffset

variable {offset : Int} (hoffset : ∀ time, offsetAt timezone time = offset)
include hoffset

theorem adjust_eq {wall utc : Int} (hday : -eraDays ≤ (utc + offset * msPerMinute) / msPerDay)
    (hminute : msPerMinute ∣ utc) :
    adjust offsetAt timezone wall utc = wall - offset * msPerMinute := by
  have hlocal : localTime offsetAt timezone utc = utc + offset * msPerMinute := by
    rw [localTime, hoffset]
  have hclock := minuteOfDay_wallClock offsetAt timezone utc
  have hdate := dateUTC_wallClock (hlocal ▸ hday) 0 (wallClock offsetAt timezone utc).hour
    (wallClock offsetAt timezone utc).minute
  unfold WallClock.minuteOfDay at hclock
  simp only [Int.add_zero] at hdate
  rw [hclock, hlocal] at hdate
  unfold adjust
  simp only
  rw [hdate]
  obtain ⟨k, rfl⟩ := hminute
  unfold msPerDay msPerMinute
  omega

/-- The second round changes nothing. -/
theorem adjust_twice {wall : Int} (hwall : -msPerDay ≤ wall) (hahead : -1440 < offset)
    (hminute : msPerMinute ∣ wall) :
    (adjust offsetAt timezone wall)^[2] wall = wall - offset * msPerMinute := by
  have hfirst : adjust offsetAt timezone wall wall = wall - offset * msPerMinute := by
    refine adjust_eq hoffset ?_ hminute
    unfold eraDays msPerDay msPerMinute at *
    omega
  have hsecond : adjust offsetAt timezone wall (wall - offset * msPerMinute) =
      wall - offset * msPerMinute := by
    refine adjust_eq hoffset ?_ (Int.dvd_sub hminute (Int.dvd_mul_left _ _))
    rw [Int.sub_add_cancel]
    unfold eraDays msPerDay at *
    omega
  rw [Function.iterate_succ_apply, Function.iterate_one, hfirst, hsecond]

end FixedOffset

theorem clockTime_bounds {text : String} (h : isClockTime text) :
    (clockTime text).1 < 24 ∧ (clockTime text).2 < 60 := by
  unfold isClockTime at h
  split at h
  · rename_i tens hour m minute htext
    simp only [Bool.and_eq_true, Bool.or_eq_true, decide_eq_true_eq] at h
    obtain ⟨⟨⟨⟨hhour, hminute⟩, hlow⟩, hhigh⟩, htens⟩ := h
    have hm : 48 ≤ m.toNat ∧ m.toNat ≤ 53 := ⟨hlow, hhigh⟩
    have htensle : 48 ≤ tens.toNat ∧ tens.toNat ≤ 50 ∧ (tens.toNat = 50 → hour.toNat ≤ 51) := by
      rcases htens with (rfl | rfl) | ⟨rfl, hle⟩
      · exact ⟨by decide, by decide, fun htwenty => absurd htwenty (by decide)⟩
      · exact ⟨by decide, by decide, fun htwenty => absurd htwenty (by decide)⟩
      · exact ⟨by decide, by decide, fun _ => hle⟩
    have hhours := Char.isDigit_iff_toNat.mp hhour
    have hminutes := Char.isDigit_iff_toNat.mp hminute
    have hne {c : Char} (hc : c.toNat ≤ 57) : ':' ≠ c := by
      rintro rfl
      exact absurd hc (by decide)
    have hparts : text.toList.splitOn ':' = [[tens, hour], [m, minute]] := by
      have hleft : ':' ∉ [tens, hour] := by simp [hne (hhours.2), hne (c := tens) (by omega)]
      have hright : ':' ∉ [m, minute] := by simp [hne (hminutes.2), hne (c := m) (by omega)]
      rw [htext, ← List.splitOn_eq_singleton hright]
      exact List.splitOn_append_cons_self_of_not_mem hleft _
    unfold clockTime
    rw [hparts]
    simp only [List.map_cons, List.map_nil, List.getD_cons_zero, List.getD_cons_succ,
      Nat.ofDigitChars_cons, Nat.ofDigitChars_nil]
    have hzero : '0'.toNat = 48 := rfl
    have hnine : '9'.toNat = 57 := rfl
    omega
  · cases h

theorem QuietHours.activeAt_iff (q : QuietHours) (n : Int) : q.activeAt n ↔
    clockMinutes q.start = clockMinutes q.end ∨
      (clockMinutes q.start < clockMinutes q.end ∧ clockMinutes q.start ≤ n ∧
        n < clockMinutes q.end) ∨
      (clockMinutes q.end < clockMinutes q.start ∧
        (clockMinutes q.start ≤ n ∨ n < clockMinutes q.end)) := by
  unfold QuietHours.activeAt
  simp only [Bool.or_eq_true, decide_eq_true_eq]
  split
  · simp only [Bool.and_eq_true, decide_eq_true_eq]
    omega
  · simp only [Bool.or_eq_true, decide_eq_true_eq]
    omega

/-- The end of hours that are active, in a time zone of a fixed offset. -/
theorem getQuietHoursEnd_eq {q : QuietHours} {offset : Int} {now : Nat}
    (hoffset : ∀ time, offsetAt q.timezone time = offset)
    (hahead : -1440 < offset ∧ offset < 1440) (henabled : q.enabled)
    (hactive : q.activeAt (wallClock offsetAt q.timezone now).minuteOfDay) :
    let clock := now + offset * msPerMinute
    let n := clock % msPerDay / msPerMinute
    getQuietHoursEnd offsetAt now (some q) = some
      ((clock / msPerDay +
          if clockMinutes q.start > clockMinutes q.end ∧ n ≥ clockMinutes q.start then 1 else 0) *
        msPerDay + clockMinutes q.end * msPerMinute - offset * msPerMinute) := by
  have hlocal : localTime offsetAt q.timezone now = now + offset * msPerMinute := by
    rw [localTime, hoffset]
  have hday : -1 ≤ (now + offset * msPerMinute) / msPerDay := by
    unfold msPerDay msPerMinute
    omega
  have hn := minuteOfDay_wallClock offsetAt q.timezone now
  unfold getQuietHoursEnd
  simp only [henabled, hactive, not_true_eq_false, if_false]
  rw [hn, dateUTC_wallClock (by rw [hlocal]; unfold eraDays; omega), hlocal,
    adjust_twice hoffset ?_ hahead.1 ?_]
  · rfl
  · split
    · unfold msPerDay msPerMinute at *
      omega
    · unfold msPerDay msPerMinute at *
      omega
  · have hminutes : msPerMinute ∣ msPerDay := by decide
    exact Int.dvd_add (Int.dvd_mul_of_dvd_right hminutes) (Int.dvd_mul_left _ _)

/-- The result is right if and only if start and end are not the same time, or that time is still
to come today. -/
theorem quiet_hours_end_exact (offsetAt : String → Int → Int) (q : QuietHours) (offset : Int)
    (now : Nat) (hoffset : ∀ time, offsetAt q.timezone time = offset)
    (hahead : -1440 < offset ∧ offset < 1440) (hend : isClockTime q.end) (henabled : q.enabled)
    (hactive : q.activeAt (wallClock offsetAt q.timezone now).minuteOfDay) :
    (∃ date, getQuietHoursEnd offsetAt now (some q) = some date ∧
        IsLeast {time : Int | now < time ∧
          localTime offsetAt q.timezone time % msPerDay = clockMinutes q.end * msPerMinute} date) ↔
      clockMinutes q.start ≠ clockMinutes q.end ∨
        (wallClock offsetAt q.timezone now).minuteOfDay < clockMinutes q.end := by
  have hdate := getQuietHoursEnd_eq hoffset hahead henabled hactive
  have hn := minuteOfDay_wallClock offsetAt q.timezone now
  have hlocal (time : Int) : localTime offsetAt q.timezone time = time + offset * msPerMinute := by
    rw [localTime, hoffset]
  have hends := clockTime_bounds hend
  have hrange : 0 ≤ clockMinutes q.end ∧ clockMinutes q.end < 1440 := by
    unfold clockMinutes
    omega
  have hcases := (q.activeAt_iff _).mp hactive
  rw [hn, hlocal] at hcases ⊢
  simp only [hdate, Option.some.injEq, exists_eq_left', hlocal,
    isLeast_recurring_iff (show 0 < msPerDay by decide)]
  generalize clockMinutes q.start = start at hcases ⊢
  generalize clockMinutes q.end = «end» at hcases hrange ⊢
  unfold msPerDay msPerMinute at *
  split
  · -- over midnight
    omega
  · omega

def overnightHours : QuietHours := ⟨true, "22:00", "07:00", "+05:30"⟩

/-- The evening of a 31 January. -/
theorem overnight_end_next_month :
    ∃ date, getQuietHoursEnd (fun _ _ => 330) 2655000000 (some overnightHours) = some date ∧
      IsLeast {time : Int | 2655000000 < time ∧
        localTime (fun _ _ => 330) "+05:30" time % msPerDay =
          clockMinutes overnightHours.end * msPerMinute} date :=
  (quiet_hours_end_exact (fun _ _ => 330) overnightHours 330 2655000000 (fun _ => rfl) (by decide)
    (by decide) rfl (by decide +kernel)).mpr (.inl (by decide +kernel))

def allDayHours : QuietHours := ⟨true, "22:00", "22:00", "UTC"⟩

/-- At eleven in the evening the end is found an hour ago. -/
theorem equal_times_end_past :
    isClockTime allDayHours.start ∧ isClockTime allDayHours.end ∧ allDayHours.enabled ∧
      allDayHours.activeAt (wallClock (fun _ _ => 0) "UTC" 82800000).minuteOfDay ∧
      getQuietHoursEnd (fun _ _ => 0) 82800000 (some allDayHours) = some 79200000 ∧
      ¬ ∃ date, getQuietHoursEnd (fun _ _ => 0) 82800000 (some allDayHours) = some date ∧
        IsLeast {time : Int | 82800000 < time ∧
          localTime (fun _ _ => 0) "UTC" time % msPerDay =
            clockMinutes allDayHours.end * msPerMinute} date := by
  have hdate : getQuietHoursEnd (fun _ _ => 0) 82800000 (some allDayHours) = some 79200000 := by
    decide +kernel
  refine ⟨by decide, by decide, rfl, by decide +kernel, hdate, ?_⟩
  rintro ⟨date, hsome, ⟨hlate, -⟩, -⟩
  rw [hdate] at hsome
  cases hsome
  exact absurd hlate (by decide)

end Clock

section Delivery

/-- Nothing was sent, and the row waits for the end of the quiet hours. -/
def Delivery.quietUntil (delivery : Delivery) (date : Int) : Prop :=
  delivery.sent = [] ∧ ∀ row, delivery.notification = some row → row.deliverAfter = some date

theorem Delivery.quietUntil_nothing (date : Int) : Delivery.nothing.quietUntil date :=
  ⟨rfl, fun _ hrow => nomatch hrow⟩

theorem Delivery.quietUntil_row {row : NotificationData} {date : Int}
    (h : row.deliverAfter = some date) : Delivery.quietUntil ⟨some row, []⟩ date :=
  ⟨rfl, fun _ hrow => Option.some.inj hrow ▸ h⟩

namespace DeliveryEnv

variable (env : DeliveryEnv) (task : NotifyTask)

def channels : ChannelPrefs :=
  normalizeChannelPrefs (env.preference.preferences.types.channels task.type)

/-- `notifyUser` gets as far as storing a notification for the user. -/
def storesFor (user : Account) : Prop :=
  env.user = some user ∧ (env.channels task).inApp ∧ ¬ env.throws .findUser ∧
    ¬ env.throws .getPreferences ∧ ¬ env.throws .createNotification

/-- The counter of text messages has room for one more. -/
def smsLeft : Prop :=
  ¬ env.throws .findSmsCount ∧ ∃ pref, env.smsPreference = some pref ∧
    if pref.smsWindowStart + smsWindow < env.smsNow then ¬ env.throws .resetSmsCount
    else pref.smsSentCount < SMS_RATE_LIMIT

def textsUser (user : Account) : Prop :=
  env.sendsSms ∧ env.smsLeft ∧ (env.channels task).sms ∧ user.phoneVerified ∧
    (truthyText user.phoneNumber).isSome ∧ task.type ∈ SMS_ALLOWED_TYPES

def postsToDiscord : Prop :=
  (env.channels task).discord ∧ (truthyText env.preference.discordWebhookUrl).isSome

variable {env task}

theorem sendSmsNotification_eq_nil_iff (phoneNumber : String) :
    env.sendSmsNotification task phoneNumber = [] ↔ ¬ (env.sendsSms ∧ env.smsLeft) := by
  unfold sendSmsNotification smsLeft
  by_cases hprovider : env.sendsSms
  · by_cases hthrown : env.throws .findSmsCount
    · simp [hprovider, hthrown]
    · cases hpref : env.smsPreference with
      | none => simp [hprovider, hthrown]
      | some pref =>
          by_cases hexpired : pref.smsWindowStart + smsWindow < env.smsNow
          · simp [hprovider, hthrown, hexpired, SMS_RATE_LIMIT]
          · simp [hprovider, hthrown, hexpired]
  · simp [hprovider]

theorem smsChannel_eq_nil_iff (user : Account) :
    env.smsChannel task user (env.channels task) = [] ↔ ¬ env.textsUser task user := by
  unfold smsChannel textsUser
  cases truthyText user.phoneNumber with
  | none => simp
  | some phoneNumber =>
      simp only
      split
      · rename_i hguard
        rw [sendSmsNotification_eq_nil_iff]
        simp [hguard]
      · rename_i hguard
        simp only [true_iff]
        rintro ⟨-, -, hsms, hverified, -, htype⟩
        exact hguard ⟨hsms, hverified, htype⟩

theorem discordChannel_eq_nil_iff :
    env.discordChannel task (env.channels task) = [] ↔ ¬ env.postsToDiscord task := by
  unfold discordChannel postsToDiscord
  cases truthyText env.preference.discordWebhookUrl with
  | none => simp
  | some discordWebhookUrl => simp

/-- The channels that do not look at the quiet hours. -/
theorem afterEmail_some (user : Account) (flags : ChannelPrefs) (date : Int) :
    env.afterEmail task user flags (some date) =
      env.smsChannel task user flags ++ env.discordChannel task flags := by
  unfold afterEmail
  cases truthyText env.preference.slackWebhookUrl with
  | none => simp
  | some slackWebhookUrl => simp

section QuietHours

variable {date : Int} (hdate : env.quietHoursEnd = some date) (hurgent : ¬ task.urgent)
include hdate hurgent

theorem deliverAfter_eq : env.deliverAfter task = some date := by
  rw [deliverAfter, if_neg hurgent, hdate]

theorem notifyUser_of_storesFor {user : Account} (h : env.storesFor task user) :
    notifyUser env task =
      ⟨some ⟨user.id, task.type, task.title, task.message, task.data, some date⟩,
        env.smsChannel task user (env.channels task) ++
          env.discordChannel task (env.channels task)⟩ := by
  obtain ⟨huser, hinApp, hfind, hprefs, hcreate⟩ := h
  unfold channels at hinApp
  unfold notifyUser
  simp only [hfind, huser, hprefs, hinApp, hcreate, deliverAfter_eq hdate hurgent,
    afterEmail_some]
  cases truthyText user.email with
  | none => rfl
  | some email => rfl

theorem notifyUserWithForcedEmail_quietUntil :
    (notifyUserWithForcedEmail env task).quietUntil date := by
  unfold notifyUserWithForcedEmail
  simp only [deliverAfter_eq hdate hurgent]
  split
  · exact Delivery.quietUntil_nothing date
  · split
    · exact Delivery.quietUntil_nothing date
    · split
      · exact Delivery.quietUntil_nothing date
      · split
        · exact Delivery.quietUntil_nothing date
        · split
          · exact Delivery.quietUntil_nothing date
          · split
            · exact Delivery.quietUntil_row rfl
            · exact Delivery.quietUntil_row rfl

end QuietHours

theorem notifyUser_eq_nothing (h : ∀ user, ¬ env.storesFor task user) :
    notifyUser env task = .nothing := by
  unfold notifyUser
  split
  · rfl
  · split
    · rfl
    · rename_i hfind _ user huser
      split
      · rfl
      · simp only
        split
        · rfl
        · rename_i hprefs hstops
          obtain ⟨hinApp, hcreate⟩ := not_or.mp hstops
          exact absurd ⟨huser, not_not.mp hinApp, hfind, hprefs, hcreate⟩ (h user)

end DeliveryEnv

/-- A call is quiet if and only if it stores no notification, or would neither send a text message
nor post to Discord. With a forced email it is quiet always. -/
theorem quiet_hours_quiet_iff (env : DeliveryEnv) (task : NotifyTask) (date : Int)
    (hdate : getQuietHoursEnd env.offsetAt env.now env.preference.preferences.quietHours =
      some date) (hurgent : ¬ task.urgent) :
    ((notifyUser env task).quietUntil date ∧
        (notifyUserWithForcedEmail env task).quietUntil date) ↔
      ∀ user, env.storesFor task user → ¬ env.textsUser task user ∧ ¬ env.postsToDiscord task := by
  constructor
  · rintro ⟨⟨hsent, -⟩, -⟩ user hstores
    rw [DeliveryEnv.notifyUser_of_storesFor hdate hurgent hstores] at hsent
    obtain ⟨hsms, hdiscord⟩ := List.append_eq_nil_iff.mp hsent
    exact ⟨(DeliveryEnv.smsChannel_eq_nil_iff user).mp hsms,
      DeliveryEnv.discordChannel_eq_nil_iff.mp hdiscord⟩
  · intro hquiet
    refine ⟨?_, DeliveryEnv.notifyUserWithForcedEmail_quietUntil hdate hurgent⟩
    by_cases hstores : ∃ user, env.storesFor task user
    · obtain ⟨user, hstores⟩ := hstores
      obtain ⟨hsms, hdiscord⟩ := hquiet user hstores
      rw [DeliveryEnv.notifyUser_of_storesFor hdate hurgent hstores,
        (DeliveryEnv.smsChannel_eq_nil_iff user).mpr hsms,
        DeliveryEnv.discordChannel_eq_nil_iff.mpr hdiscord]
      exact Delivery.quietUntil_row rfl
    · rw [DeliveryEnv.notifyUser_eq_nothing (not_exists.mp hstores)]
      exact Delivery.quietUntil_nothing date

/-- Eleven in the evening, for a user who can be reached through every channel. -/
def nightEnv (flags : StoredChannels) : DeliveryEnv where
  offsetAt := fun _ _ => 0
  now := 82800000
  user := some
    { newAccount "u1" "GBUYER" with
      email := some "buyer@chainsettle.test"
      phoneNumber := some "+15550100"
      phoneVerified := true }
  preference :=
    { userId := "u1"
      preferences :=
        { buildDefaultPreferences with
          types := buildDefaultPreferences.types.set .disputeRaised flags
          quietHours := some ⟨true, "22:00", "07:00", "UTC"⟩ }
      slackWebhookUrl := some "https://slack.test/hook"
      discordWebhookUrl := some "https://discord.test/hook"
      smsSentCount := 0
      smsWindowStart := 0 }
  emailSuppressed := false
  sendsSms := true
  smsPreference := some ⟨"u1", buildDefaultPreferences, none, none, 0, 0⟩
  smsNow := 82800000
  webPush := true
  throws := fun _ => false

def disputeTask : NotifyTask where
  stellarAddress := "GBUYER"
  type := .disputeRaised
  title := "Dispute raised"
  message := "A dispute was raised."
  data := [("shipmentId", .str "s1")]
  forced := false

/-- With the default channels all is left for seven in the morning. -/
theorem default_channels_wait :
    let env := nightEnv ⟨some true, some true, some true, some false, some false, some true⟩
    (notifyUser env disputeTask).quietUntil 111600000 ∧
      (notifyUserWithForcedEmail env disputeTask).quietUntil 111600000 :=
  (quiet_hours_quiet_iff _ disputeTask 111600000 (by decide +kernel) (by decide)).mpr
    fun user _ => ⟨fun htexts => absurd htexts.2.2.1 (by decide),
      fun hposts => absurd hposts.1 (by decide)⟩

/-- A text message and a post at eleven in the evening. -/
theorem text_message_at_night :
    let env := nightEnv ⟨some true, some true, some true, some true, some true, some true⟩
    getQuietHoursEnd env.offsetAt env.now env.preference.preferences.quietHours = some 111600000 ∧
      ¬ disputeTask.urgent ∧
      (notifyUser env disputeTask).sent =
        [.sms "+15550100" disputeTask.smsBody, .discord "https://discord.test/hook" disputeTask] ∧
      ¬ ((notifyUser env disputeTask).quietUntil 111600000 ∧
        (notifyUserWithForcedEmail env disputeTask).quietUntil 111600000) := by
  intro env
  have hdate : env.quietHoursEnd = some 111600000 := by decide +kernel
  have hurgent : ¬ disputeTask.urgent := by decide
  have hsent : (notifyUser env disputeTask).sent =
      [.sms "+15550100" disputeTask.smsBody, .discord "https://discord.test/hook" disputeTask] := by
    rw [DeliveryEnv.notifyUser_of_storesFor hdate hurgent
      ⟨rfl, by decide, by decide, by decide, by decide⟩]
    rfl
  refine ⟨hdate, hurgent, hsent, ?_⟩
  rintro ⟨⟨hnothing, -⟩, -⟩
  rw [hsent] at hnothing
  cases hnothing

end Delivery

end ChainSettle
