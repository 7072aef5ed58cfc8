import Dalm.Availability
import Mathlib.Data.Rat.Floor

/-! The day of its search a photo is shown with. It goes forward from 1 to 7, until the period is
over and the photo still SEARCHING: then it is the first day again. -/
namespace Dalm
open Relational Txn HomeRepository

section days
variable {registeredAt now : ℚ}

/-- Seconds since the epoch, exactly. -/
def inSeconds (instant : Time) : ℚ := instant / 1000000

/-- `search_day` of a period that ends at `expiresAt`, in seconds: the ceiling of `remaining_days`,
its clamp, `or 7` and the clamp of get_home. -/
def searchDayAt (expiresAt now : ℚ) : Int :=
  let value : Int := ⌈(expiresAt - now) / 86400⌉
  let remaining := min 7 (max 0 value)
  max 1 (8 - if remaining = 0 then 7 else remaining)

theorem searchDay_eq (expiresAt now : Time) :
    searchDay (some expiresAt) now = searchDayAt (inSeconds expiresAt) (inSeconds now) := by
  have ratio : (inSeconds expiresAt - inSeconds now) / 86400 =
      ((expiresAt - now : Int) : ℚ) / ((86400000000 : Nat) : ℚ) := by
    unfold inSeconds
    push_cast
    ring
  have ceiling : -((now - expiresAt) / days 1) = ⌈(inSeconds expiresAt - inSeconds now) / 86400⌉ := by
    rw [ratio,Rat.ceil_intCast_div_natCast,neg_sub]
    rfl
  unfold searchDay searchDayAt remainingDays
  rw [Option.map_some,ceiling]

/-- Whole days from one instant to another. -/
def wholeDays (registeredAt now : ℚ) : Int := ⌊(now - registeredAt) / 86400⌋

theorem ceil_rest : ⌈(registeredAt + 7 * 86400 - now) / 86400⌉ = 7 - wholeDays registeredAt now := by
  have rest : (registeredAt + 7 * 86400 - now) / 86400 = ((7 : Int) : ℚ) + -((now - registeredAt) / 86400) := by
    push_cast
    ring
  rw [rest,Int.ceil_intCast_add,Int.ceil_neg]
  exact (sub_eq_add_neg _ _).symm

theorem wholeDays_nonneg (since : registeredAt ≤ now) : 0 ≤ wholeDays registeredAt now :=
  Int.floor_nonneg.mpr (div_nonneg (by linarith) (by norm_num))

theorem wholeDays_lt (registeredAt now : ℚ) : wholeDays registeredAt now < 7 ↔ now < registeredAt + 7 * 86400 := by
  rw [wholeDays,Int.floor_lt,div_lt_iff₀ (by norm_num)]
  push_cast
  constructor <;> intro <;> linarith

/-- Up to the end of the period the day counts up, and then it is the first again. -/
theorem searchDayAt_eq (since : registeredAt ≤ now) : searchDayAt (registeredAt + 7 * 86400) now =
    if now < registeredAt + 7 * 86400 then 1 + wholeDays registeredAt now else 1 := by
  have least := wholeDays_nonneg since
  have most := wholeDays_lt registeredAt now
  unfold searchDayAt
  dsimp only
  rw [ceil_rest,← if_congr most rfl rfl]
  split <;> split <;> omega

end days

section home
variable {t n : Nat} {inputs : Nat → Input} {w : BackendWorld} {photo : Photo} {instant : Time}
  {summary : HomePhotoSummary}

/-- The photo as get_home shows it while it is SEARCHING. -/
def summaryAt (instant : Time) (photo : Photo) : HomePhotoSummary :=
  ⟨photo.id,photo.imageUrl,photo.registeredAt,searchDay photo.searchExpiresAt instant⟩

theorem alone_homeSummary (frozen : ∀ k, (inputs k : Input).now = instant)
    (answered : (alone t inputs (homeSummary photo) n w).result = .ok summary) :
    summary = summaryAt instant photo := by
  cases answered
  rw [frozen]
  rfl

theorem alone_activeToday {latest : Option Photo} (frozen : ∀ k, (inputs k : Input).now = instant)
    (answered : (alone t inputs (activeToday latest) n w).result = .ok (some summary)) :
    ∃ photo, latest = some photo ∧ summary.id = photo.id ∧
      (photo.status = .searching → summary = summaryAt instant photo) := by
  unfold activeToday at answered
  cases latest with
  | none => cases answered
  | some photo =>
    refine ⟨photo,rfl,?_⟩
    dsimp only at answered
    split at answered
    next => cases answered
    next =>
      split at answered
      next =>
        obtain ⟨made,_,_,first,answered⟩ := alone_bind_ok answered
        cases answered
        have same := alone_homeSummary frozen (congrArg Ended.result first)
        exact ⟨by rw [same]; rfl,fun _ => same⟩
      next other =>
        cases answered
        exact ⟨rfl,fun searching => absurd searching other⟩

theorem timedOut_searching {userId : UUID} {now : Time} (found : w.db.photos.get? photo.id = some photo)
    (searching : photo.status = .searching) {other : Photo} (member : other ∈ (timedOut userId now w.db).photos.rows)
    (own : other.id = photo.id) : other = photo := by
  have there : (timedOut userId now w.db).photos.get? photo.id = some other := own ▸ Table.get?_of_mem member
  obtain ⟨before,found',same⟩ := Table.get?_modify_eq_some.mp there
  cases Option.some.inj (found.symm.trans found')
  rw [found,Option.any_some,isStale,searching] at same
  simpa using same

/-- get_home, answered in this world at this instant, shows the photo with this day. -/
structure HomeShows (w : BackendWorld) (photo : Photo) (instant : Time) (day : Int) : Prop where
  found : w.db.photos.get? photo.id = some photo
  shown : ∃ seoulDate userId t inputs data summary, (∀ k, (inputs k : Input).now = instant) ∧
    (alone t inputs (getHome seoulDate userId) 0 w).result = .ok data ∧
    (data.todayPhoto = some summary ∨ summary ∈ data.searchingPhotos) ∧ summary.id = photo.id ∧
    summary.searchDay = day

theorem HomeShows.day {day : Int} (shows_ : HomeShows w photo instant day)
    (searching : photo.status = .searching) : day = searchDay photo.searchExpiresAt instant := by
  obtain ⟨found,seoulDate,userId,t,inputs,data,summary,frozen,answered,shown,own,rfl⟩ := shows_
  obtain ⟨m,log,today⟩ := alone_getTodayPhoto t inputs userId (seoulDate (inputs 0).now) 1 w
  rw [getHome,alone_supply,alone_bind,today] at answered
  simp only [andThen] at answered
  rw [listSearchingPhotos,alone_query] at answered
  obtain ⟨unviewed,m₂,_,_,answered⟩ := alone_bind_ok answered
  obtain ⟨active,m₃,_,activated,answered⟩ := alone_bind_ok answered
  obtain ⟨summaries,m₄,_,summarized,answered⟩ := alone_bind_ok answered
  cases answered
  have same : ∀ other ∈ (timedOut userId (inputs 1).now w.db).photos.rows, other.id = photo.id →
      other = photo := fun other member => timedOut_searching found searching member
  rcases shown with today | listed
  · have ended := congrArg Ended.result activated
    rw [show active = some summary from today] at ended
    obtain ⟨other,there,id,shown⟩ := alone_activeToday frozen ended
    have equal := same other (latest_eq_some there).1 (id.symm.trans own)
    subst equal
    rw [shown searching]
    rfl
  · have all := alone_mapM (g := id) (h := summaryAt instant)
      (fun _ _ _ _ => alone_homeSummary frozen) (congrArg Ended.result summarized)
    rw [List.map_id] at all
    have listed : summary ∈ summaries := listed
    rw [all] at listed
    obtain ⟨other,member,rfl⟩ := List.mem_map.mp listed
    have inside := List.mem_of_mem_take (List.mem_of_mem_take member)
    have stored := (List.mem_filter.mp ((List.mem_insertionSort _).mp inside)).1
    rw [same other stored own]
    rfl

end home

/-- The days shown at two instants, the second not before the first. -/
structure MovesForward (registeredAt first second : ℚ) (day₁ day₂ : Int) : Prop where
  forward : day₁ ≤ day₂
  within₁ : 1 ≤ day₁ ∧ day₁ ≤ 7
  within₂ : 1 ≤ day₂ ∧ day₂ ≤ 7
  counted₁ : day₁ = min 7 (1 + wholeDays registeredAt first)
  counted₂ : day₂ = min 7 (1 + wholeDays registeredAt second)

theorem movesForward_iff {registeredAt first second : ℚ} (since : registeredAt ≤ first)
    (later : first ≤ second) : MovesForward registeredAt first second
      (searchDayAt (registeredAt + 7 * 86400) first) (searchDayAt (registeredAt + 7 * 86400) second) ↔
        second < registeredAt + 7 * 86400 := by
  have since' := since.trans later
  rw [searchDayAt_eq since,searchDayAt_eq since']
  have least := wholeDays_nonneg since
  have more : wholeDays registeredAt first ≤ wholeDays registeredAt second :=
    Int.floor_le_floor (by linarith)
  have most₁ := wholeDays_lt registeredAt first
  have most₂ := wholeDays_lt registeredAt second
  constructor
  · intro moves
    by_contra elapsed
    have counted := moves.counted₂
    rw [if_neg elapsed] at counted
    have whole := mt most₂.mp elapsed
    omega
  · intro before
    have before' := lt_of_le_of_lt later before
    have whole := most₂.mpr before
    rw [if_pos before,if_pos before']
    constructor <;> omega

theorem inSeconds_add_week (registeredAt : Time) :
    inSeconds (registeredAt + days 7) = inSeconds registeredAt + 7 * 86400 := by
  have week : days 7 = 604800000000 := by decide
  unfold inSeconds
  rw [week]
  push_cast
  ring

theorem inSeconds_le {first second : Time} : inSeconds first ≤ inSeconds second ↔ first ≤ second := by
  unfold inSeconds
  rw [div_le_div_iff_of_pos_right (by norm_num),Int.cast_le]

theorem inSeconds_lt {first second : Time} : inSeconds first < inSeconds second ↔ first < second :=
  lt_iff_lt_of_le_iff_le inSeconds_le

/-- The day of a photo that is searching moves forward exactly up to the end of its period: as
get_home shows it at the instants a clock reads, and as it is computed at any instants. -/
theorem searchDayForward (photo : Photo) (searching : photo.status = .searching)
    (period : photo.searchExpiresAt = some (photo.registeredAt + days 7)) :
    (∀ w w' (first second : Time) day₁ day₂, photo.registeredAt ≤ first → first ≤ second →
      HomeShows w photo first day₁ → HomeShows w' photo second day₂ →
      (MovesForward (inSeconds photo.registeredAt) (inSeconds first) (inSeconds second) day₁ day₂ ↔
        second < photo.registeredAt + days 7)) ∧
    ∀ first second : ℚ, inSeconds photo.registeredAt ≤ first → first ≤ second →
      (MovesForward (inSeconds photo.registeredAt) first second
        (searchDayAt (inSeconds photo.registeredAt + 7 * 86400) first)
        (searchDayAt (inSeconds photo.registeredAt + 7 * 86400) second) ↔
          second < inSeconds photo.registeredAt + 7 * 86400) := by
  refine ⟨?_,fun first second since later => movesForward_iff since later⟩
  intro w w' first second day₁ day₂ since later shown₁ shown₂
  rw [shown₁.day searching,shown₂.day searching,period,searchDay_eq,searchDay_eq,inSeconds_add_week,
    movesForward_iff (inSeconds_le.mpr since) (inSeconds_le.mpr later),← inSeconds_add_week,inSeconds_lt]

namespace Sample

/-- A photo that was accepted as it was registered, at instant 5. -/
def afterMock : BackendWorld :=
  (alone 0 (fun _ => input 5 100) (program settings Rat.sqrt (upload 11 1 true)) 0 ⟨Db.empty users,[]⟩).world

def mockPhoto : Photo :=
  ⟨11,1,"",some "11",some "11",.searching,0,5,some (5 + days 7),none,none,none,none⟩

def homeAt (instant : Time) : Except Exc HomeData :=
  (alone 9 (fun _ => input instant 0) (getHome seoulDate 1) 0 afterMock).result

/-- What home shows of the photo, as the photo of the day or among the searching ones. -/
def showsDay (day : Int) (data : HomeData) : Bool :=
  (data.todayPhoto.toList ++ data.searchingPhotos).any fun summary => summary.id = 11 ∧ summary.searchDay = day

theorem homeShows_of {instant : Time} {day : Int} (passes : (homeAt instant).toOption.any (showsDay day) = true) :
    HomeShows afterMock mockPhoto instant day := by
  obtain ⟨data,answered,shown⟩ := (Option.any_eq_true _ _).mp passes
  obtain ⟨summary,member,same⟩ := List.any_eq_true.mp shown
  obtain ⟨own,days⟩ := of_decide_eq_true same
  have listed : data.todayPhoto = some summary ∨ summary ∈ data.searchingPhotos :=
    (List.mem_append.mp member).imp Option.mem_toList.mp id
  refine ⟨by decide +kernel,seoulDate,1,9,fun _ => input instant 0,data,summary,fun _ => rfl,?_,listed,own,days⟩
  cases ended : homeAt instant with
  | error error =>
    rw [ended] at answered
    cases answered
  | ok found =>
    rw [ended] at answered
    cases answered
    exact ended

end Sample

theorem searchDayForward_sixth : MovesForward (inSeconds 5) (inSeconds 5) (inSeconds (5 + days 6)) 1 7 := by
  have shown := (searchDayForward Sample.mockPhoto rfl rfl).1 Sample.afterMock Sample.afterMock 5 (5 + days 6)
    1 7 (by decide) (by decide) (Sample.homeShows_of (by decide +kernel)) (Sample.homeShows_of (by decide +kernel))
  exact shown.mpr (by decide)

theorem searchDay_starts_over : ¬ ∀ (photo : Photo) (w w' : BackendWorld) (first second : Time) (day₁ day₂ : Int),
    photo.status = .searching → photo.searchExpiresAt = some (photo.registeredAt + days 7) →
    photo.registeredAt ≤ first → first ≤ second → HomeShows w photo first day₁ → HomeShows w' photo second day₂ →
    MovesForward (inSeconds photo.registeredAt) (inSeconds first) (inSeconds second) day₁ day₂ := by
  intro claim
  have falls := (claim Sample.mockPhoto Sample.afterMock Sample.afterMock (5 + days 6) (5 + days 7) 7 1 rfl rfl
    (by decide) (by decide) (Sample.homeShows_of (by decide +kernel))
    (Sample.homeShows_of (by decide +kernel))).forward
  exact absurd falls (by decide)

end Dalm
