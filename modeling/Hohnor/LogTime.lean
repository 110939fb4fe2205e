import Hohnor.LogRecord
import Hohnor.Timestamp

/-!
# The time of a log record

`formatTime` of src/log/Logging.cpp.  A thread keeps the text of the last
second that it has logged and formats the date again when the second changes,
so most records skip localtime_r and snprintf.

The kept text is that of the kept second from the first change on.  Before it
the kept second is 0 and the text is empty: a thread whose first record is from
the second 0 logs it without a date, and so the ones that follow in that
second.
-/

namespace Hohnor

/-- The two thread-local variables. -/
structure TimeCache where
  t_time : List Char
  t_lastSecond : Int
deriving DecidableEq, Repr

namespace TimeCache

/-- The zeros that a new thread finds. -/
def initial : TimeCache where
  t_time := []
  t_lastSecond := 0

section TimeCache

variable (localtime_r : Int → Tm)

/-- The cache after a record of this time; `localtime_r` answers in the zone of
the process. -/
def update (cache : TimeCache) (time_ : Timestamp) : TimeCache :=
  if time_.secondsSinceEpoch ≠ cache.t_lastSecond then
    { t_time :=
        snprintf 64
          (Timestamp.dateText (localtime_r time_.secondsSinceEpoch))
      t_lastSecond := time_.secondsSinceEpoch }
  else
    cache

/-- `Fmt us(".%06dZ ", microseconds)`. -/
def us (time_ : Timestamp) : List Char :=
  '.' :: zeroPadded 6 time_.microseconds ++ ['Z', ' ']

/-- What formatTime supplies for a record of the thread. -/
def env (cache : TimeCache) (thread : LogEnv) (time_ : Timestamp) : LogEnv :=
  { thread with
    t_time := (cache.update localtime_r time_).t_time
    us := us time_ }

/-- The texts of the times of a thread's records, in the order in which it
makes them. -/
def texts (thread : LogEnv) (cache : TimeCache) :
    List Timestamp → List (List Char)
  | [] => []
  | time_ :: times =>
      allText (Logger.formatTime (cache.env localtime_r thread time_)) ::
        (cache.update localtime_r time_).texts thread times

/-- The text of a time without a cache. -/
def formatted (time_ : Timestamp) : List Char :=
  time_.toFormattedString localtime_r false .UTC ++ us time_

/-- The kept text is that of the kept second. -/
def Coherent (cache : TimeCache) : Prop :=
  cache.t_time =
    snprintf 64 (Timestamp.dateText (localtime_r cache.t_lastSecond))

variable {localtime_r}

theorem update_changed
    {cache : TimeCache} {time_ : Timestamp}
    (hchanged : time_.secondsSinceEpoch ≠ cache.t_lastSecond) :
    (cache.update localtime_r time_).Coherent localtime_r ∧
      (cache.update localtime_r time_).t_lastSecond =
        time_.secondsSinceEpoch := by
  rw [update, if_pos hchanged]
  exact ⟨rfl, rfl⟩

theorem Coherent.update
    {cache : TimeCache} (hcache : cache.Coherent localtime_r)
    (time_ : Timestamp) :
    (cache.update localtime_r time_).Coherent localtime_r ∧
      (cache.update localtime_r time_).t_lastSecond =
        time_.secondsSinceEpoch := by
  by_cases hchanged : time_.secondsSinceEpoch ≠ cache.t_lastSecond
  · exact update_changed hchanged
  · rw [TimeCache.update, if_neg hchanged]
    exact ⟨hcache, (not_ne_iff.mp hchanged).symm⟩

theorem allText_formatTime
    (thread : LogEnv) (cache : TimeCache) (time_ : Timestamp) :
    allText (Logger.formatTime (cache.env localtime_r thread time_)) =
      (cache.update localtime_r time_).t_time ++ us time_ := by
  simp [Logger.formatTime, env, allText, Inserted.text]

/-- A record made with the text of its own second. -/
theorem allText_of_coherent
    (thread : LogEnv) {cache : TimeCache} {time_ : Timestamp}
    (hcache :
      (cache.update localtime_r time_).Coherent localtime_r ∧
        (cache.update localtime_r time_).t_lastSecond =
          time_.secondsSinceEpoch) :
    allText (Logger.formatTime (cache.env localtime_r thread time_)) =
      formatted localtime_r time_ := by
  obtain ⟨hcoherent, hlast⟩ := hcache
  rw [Coherent, hlast] at hcoherent
  rw [allText_formatTime, hcoherent, formatted,
    Timestamp.toFormattedString, if_neg Bool.false_ne_true,
    if_neg (by decide)]

theorem Coherent.texts
    (thread : LogEnv) {cache : TimeCache}
    (hcache : cache.Coherent localtime_r) (times : List Timestamp) :
    cache.texts localtime_r thread times =
      times.map (formatted localtime_r) := by
  induction times generalizing cache with
  | nil =>
      rfl
  | cons time_ times ih =>
      have hnext := hcache.update time_
      rw [TimeCache.texts, List.map_cons, ih hnext.1,
        allText_of_coherent thread hnext]

/-- In the run of a thread's records, at times in any order, the cache changes
no text but those before the first record that is not from the second 0: they
have no date. -/
theorem texts_eq
    (localtime_r : Int → Tm) (thread : LogEnv) (times : List Timestamp) :
    initial.texts localtime_r thread times =
      (times.takeWhile fun t => t.secondsSinceEpoch = 0).map us ++
        (times.dropWhile fun t => t.secondsSinceEpoch = 0).map
          (formatted localtime_r) := by
  induction times with
  | nil =>
      rfl
  | cons time_ times ih =>
      by_cases hzero : time_.secondsSinceEpoch = 0
      · have hkept : initial.update localtime_r time_ = initial :=
          if_neg (not_ne_iff.mpr hzero)
        rw [texts, allText_formatTime, hkept, ih,
          List.takeWhile_cons_of_pos (by simpa using hzero),
          List.dropWhile_cons_of_pos (by simpa using hzero)]
        rfl
      · have hnext := @update_changed localtime_r initial time_ hzero
        rw [texts, hnext.1.texts, allText_of_coherent thread hnext,
          List.takeWhile_cons_of_neg (by simpa using hzero),
          List.dropWhile_cons_of_neg (by simpa using hzero)]
        rfl

end TimeCache

end TimeCache

end Hohnor
