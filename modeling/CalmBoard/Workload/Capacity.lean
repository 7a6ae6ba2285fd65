import CalmBoard.Workload.Week
import CalmBoard.Lib.Capped

/-!
# CalmBoard.Workload.Capacity — the capacity that a user has in a week

* `entryAdds`, `reductions_eq`: the loops of a row add up the time off day by day, up to the capacity of
  a day.
* `total_entryAdds`: the total of a day is what the user is off.
* `timeOffMinutes_eq`, `effectiveCapacity_eq`: the time off and the capacity that is left, which are
  those of a row (`workloadRow_ok`).
* `workloadRow_comm`: the order of the entries does not matter.
-/

namespace CalmBoard.Workload

open Calendar (weekday)
open IsoDate (msPerDay isoDay IsoYear)

variable {value : JsDate} {monday mask day : ℤ} {daily : ℚ} {user : User} {entry : WorkloadTimeOff}
  {timeOff timeOff' : List WorkloadTimeOff}

/-! ### Loops -/

/-- What a round of the loop over the days adds. -/
def dayAdds (mask : ℤ) (daily : ℚ) (entry : WorkloadTimeOff) (day : ℤ) : List (List Char × ℚ) :=
  if entry.on day && isWorkday mask (weekday day).toNat then [(dayKey day, entry.minutes daily)]
  else []

/-- What a round of the loop over the time off adds. -/
def entryAdds (monday mask : ℤ) (daily : ℚ) (user : User) (entry : WorkloadTimeOff) :
    List (List Char × ℚ) :=
  if entry.appliesTo user then (weekDays monday).flatMap (dayAdds mask daily entry) else []

theorem reduceDay_eq (hweek : IsoWeek value monday) (hentry : entry.Accepted)
    (reductions : Reductions) {i : ℕ} (hi : i < 7) :
    reduceDay (.time (monday * msPerDay)) mask daily entry reductions i =
      .ok ((dayAdds mask daily entry (monday + i)).foldl (Capped.add daily) reductions) := by
  obtain ⟨first, last, hdates⟩ := hentry.dates
  have hday : getUTCDay (.time ((monday + i) * msPerDay)) = (weekday (monday + i)).toNat := by
    show (weekday ((monday + i) * msPerDay / msPerDay)).toNat = _
    rw [mul_ediv_msPerDay]
  have hskip : (dayKey (monday + i) < entry.startsOn ∨ entry.endsOn < dayKey (monday + i) ∨
      isWorkday mask (weekday (monday + i)).toNat = false) ↔
      ¬((entry.on (monday + i) && isWorkday mask (weekday (monday + i)).toNat) = true) := by
    rw [Bool.and_eq_true, hdates.on_iff, ← hdates.between_iff, Bool.eq_false_iff]
    tauto
  unfold reduceDay dayAdds
  rw [hweek.days i hi]
  dsimp only
  rw [hday]
  show (if dayKey (monday + i) < entry.startsOn ∨ entry.endsOn < dayKey (monday + i) ∨
      isWorkday mask (weekday (monday + i)).toNat = false then _ else _) = _
  by_cases hadds : (entry.on (monday + i) && isWorkday mask (weekday (monday + i)).toNat) = true
  · rw [if_neg (fun h => hskip.mp h hadds), if_pos hadds]
    rfl
  · rw [if_pos (hskip.mpr hadds), if_neg hadds]
    rfl

theorem reduceEntry_eq (hweek : IsoWeek value monday) (hentry : entry.Accepted)
    (reductions : Reductions) :
    reduceEntry (.time (monday * msPerDay)) mask daily user reductions entry =
      .ok ((entryAdds monday mask daily user entry).foldl (Capped.add daily) reductions) := by
  have happlies : (entry.status ≠ .approved ∨ (entry.userId ≠ none ∧ entry.userId ≠ some user.id)) ↔
      ¬(entry.appliesTo user = true) := by
    unfold WorkloadTimeOff.appliesTo
    rw [decide_eq_true_iff]
    tauto
  unfold reduceEntry entryAdds
  by_cases h : entry.appliesTo user = true
  · rw [if_neg (fun hnot => happlies.mp hnot h), if_pos h, weekDays, List.flatMap_map]
    refine Capped.foldlM_adds fun s i hi => ?_
    exact reduceDay_eq hweek hentry s (List.mem_range.mp hi)
  · rw [if_pos (happlies.mpr h), if_neg h]
    rfl

/-- **The loops** add up the time off under the keys of the days. -/
theorem reductions_eq (hweek : IsoWeek value monday) (htimeOff : ∀ e ∈ timeOff, e.Accepted) :
    timeOff.foldlM (reduceEntry (.time (monday * msPerDay)) mask daily user) [] =
      .ok (Capped.addAll daily (timeOff.flatMap (entryAdds monday mask daily user))) :=
  Capped.foldlM_adds fun s entry hentry => reduceEntry_eq hweek (htimeOff entry hentry) s

/-! ### Days -/

theorem mem_dayAdds {e : List Char × ℚ} (h : e ∈ dayAdds mask daily entry day) :
    entry.on day = true ∧ isWorkday mask (weekday day).toNat = true ∧
      e = (dayKey day, entry.minutes daily) := by
  unfold dayAdds at h
  split at h
  · next hadds =>
    rw [Bool.and_eq_true] at hadds
    exact ⟨hadds.1, hadds.2, List.mem_singleton.mp h⟩
  · cases h

theorem mem_entryAdds {e : List Char × ℚ} (h : e ∈ entryAdds monday mask daily user entry) :
    ∃ day ∈ workdaysOf mask monday, entry.on day = true ∧ e = (dayKey day, entry.minutes daily) := by
  unfold entryAdds at h
  split at h
  · obtain ⟨day, hday, he⟩ := List.mem_flatMap.mp h
    obtain ⟨hon, hwork, rfl⟩ := mem_dayAdds he
    exact ⟨day, List.mem_filter.mpr ⟨hday, hwork⟩, hon, rfl⟩
  · cases h

theorem WorkloadTimeOff.Accepted.isoYear (hentry : entry.Accepted) (hon : entry.on day = true) : IsoYear day := by
  obtain ⟨first, last, hdates⟩ := hentry.dates
  obtain ⟨hfirst, hlast⟩ := hdates.on_iff.mp hon
  exact hdates.isoYear hfirst hlast

theorem total_dayAdds (hentry : entry.Accepted) (hyear : IsoYear day) {n : ℤ} :
    Capped.total (dayAdds mask daily entry n) (dayKey day) =
      if n = day then (if entry.on day && isWorkday mask (weekday day).toNat then entry.minutes daily
        else 0) else 0 := by
  by_cases hn : n = day
  · subst hn
    rw [if_pos rfl]
    unfold dayAdds
    split
    · rw [Capped.total_cons, if_pos rfl]
      exact add_zero _
    · rfl
  · rw [if_neg hn]
    refine Capped.total_of_notMem fun hmem => hn ?_
    obtain ⟨e, he, hkey⟩ := List.mem_map.mp hmem
    obtain ⟨hon, -, rfl⟩ := mem_dayAdds he
    have hyear' := hentry.isoYear hon
    have hkeys : isoDay n = isoDay day := by
      rw [← dayKey_eq hyear', ← dayKey_eq hyear]
      exact hkey
    exact (IsoDate.isoDay_inj hyear' hyear).mp hkeys

theorem total_entryAdds (hentry : entry.Accepted) (hyear : IsoYear day)
    (hday : day ∈ workdaysOf mask monday) :
    Capped.total (entryAdds monday mask daily user entry) (dayKey day) =
      if entry.appliesTo user && entry.on day then entry.minutes daily else 0 := by
  obtain ⟨hmem, hwork⟩ := List.mem_filter.mp hday
  unfold entryAdds
  by_cases happlies : entry.appliesTo user = true
  · rw [if_pos happlies, Capped.total_flatMap, happlies, Bool.true_and]
    simp only [total_dayAdds hentry hyear, hwork, Bool.and_true]
    rw [List.sum_map_ite_eq, List.count_eq_one_of_mem (nodup_weekDays monday) hmem]
    simp
  · rw [if_neg happlies, Bool.eq_false_iff.mpr happlies, Bool.false_and]
    rfl

/-- **The total of a day** is what the user is off. -/
theorem total_eq (htimeOff : ∀ e ∈ timeOff, e.Accepted) (hyear : IsoYear day)
    (hday : day ∈ workdaysOf mask monday) :
    Capped.total (timeOff.flatMap (entryAdds monday mask daily user)) (dayKey day) =
      timeOffOn timeOff user daily day := by
  rw [Capped.total_flatMap]
  unfold timeOffOn
  have hentries : timeOff.map (fun e => Capped.total (entryAdds monday mask daily user e) (dayKey day)) =
      timeOff.map fun e => if e.appliesTo user && e.on day then e.minutes daily else 0 :=
    List.map_congr_left fun e he => total_entryAdds (htimeOff e he) hyear hday
  have hcounted : ∀ e ∈ timeOff, (e.appliesTo user && e.on day) = false →
      (if e.appliesTo user && e.on day then e.minutes daily else 0) = 0 := by
    intro e _ hoff
    rw [hoff]
    rfl
  rw [hentries, ← Capped.sum_filter hcounted]
  refine congrArg List.sum (List.map_congr_left fun e he => ?_)
  rw [if_pos (List.mem_filter.mp he).2]

theorem timeOffOn_of_signed (htimeOff : ∀ e ∈ timeOff, e.Accepted) (hyear : ¬IsoYear day) :
    timeOffOn timeOff user daily day = 0 := by
  have hnone : (timeOff.filter fun e => e.appliesTo user && e.on day) = [] := by
    refine List.filter_eq_nil_iff.mpr fun e he hcounts => hyear ?_
    rw [Bool.and_eq_true] at hcounts
    exact (htimeOff e he).isoYear hcounts.2
  unfold timeOffOn
  rw [hnone]
  rfl

/-! ### Weeks -/

theorem adds_nonneg (htimeOff : ∀ e ∈ timeOff, e.Accepted) (hdaily : 0 ≤ daily) :
    ∀ e ∈ timeOff.flatMap (entryAdds monday mask daily user), 0 ≤ e.2 := by
  intro e he
  obtain ⟨entry, hentry, he⟩ := List.mem_flatMap.mp he
  obtain ⟨day, -, -, rfl⟩ := mem_entryAdds he
  exact (htimeOff entry hentry).minutes_nonneg hdaily

/-- **The time off of a week**, day by day and up to the capacity of a day. -/
theorem timeOffMinutes_eq (htimeOff : ∀ e ∈ timeOff, e.Accepted) (hdaily : 0 ≤ daily) :
    ((Capped.addAll daily (timeOff.flatMap (entryAdds monday mask daily user))).map Prod.snd).sum =
      ((workdaysOf mask monday).map fun day => min daily (timeOffOn timeOff user daily day)).sum := by
  have hkeys : (((workdaysOf mask monday).filter fun day => IsoYear day).map dayKey).Nodup := by
    refine List.Nodup.map_on (fun m hm n hn hmn => ?_)
      (((nodup_weekDays monday).filter _).filter _)
    have hm := of_decide_eq_true (List.mem_filter.mp hm).2
    have hn := of_decide_eq_true (List.mem_filter.mp hn).2
    rw [dayKey_eq hm, dayKey_eq hn] at hmn
    exact (IsoDate.isoDay_inj hm hn).mp hmn
  have hmem : ∀ e ∈ timeOff.flatMap (entryAdds monday mask daily user),
      e.1 ∈ ((workdaysOf mask monday).filter fun day => IsoYear day).map dayKey := by
    intro e he
    obtain ⟨entry, hentry, he⟩ := List.mem_flatMap.mp he
    obtain ⟨day, hday, hon, rfl⟩ := mem_entryAdds he
    have hyear := (htimeOff entry hentry).isoYear hon
    exact List.mem_map_of_mem (List.mem_filter.mpr ⟨hday, decide_eq_true hyear⟩)
  rw [Capped.sum_addAll (adds_nonneg htimeOff hdaily) hdaily hkeys hmem, List.map_map]
  have htotals : ((workdaysOf mask monday).filter fun day => IsoYear day).map
        ((fun k => min daily (Capped.total (timeOff.flatMap (entryAdds monday mask daily user)) k)) ∘
          dayKey) =
      ((workdaysOf mask monday).filter fun day => IsoYear day).map
        fun day => min daily (timeOffOn timeOff user daily day) := by
    refine List.map_congr_left fun day hday => ?_
    obtain ⟨hday, hyear⟩ := List.mem_filter.mp hday
    exact congrArg (min daily) (total_eq htimeOff (of_decide_eq_true hyear) hday)
  rw [htotals]
  refine Capped.sum_filter fun day _ hyear => ?_
  rw [timeOffOn_of_signed htimeOff (of_decide_eq_false hyear), min_eq_right hdaily]

theorem length_workdaysOf (hmonday : weekday monday = 1) :
    (workdaysOf mask monday).length = (workdays mask).length := by
  have hdays : (weekDays monday).map (fun day => (weekday day).toNat) =
      (List.range 7).map fun i => (1 + i) % 7 := by
    rw [weekDays, List.map_map]
    refine List.map_congr_left fun i _ => ?_
    show (weekday (monday + i)).toNat = (1 + i) % 7
    unfold weekday at hmonday ⊢
    omega
  have hperm : ((List.range 7).map fun i => (1 + i) % 7).Perm (List.range 7) := by decide
  have hlength := (hperm.filter (isWorkday mask)).length_eq
  rw [← hdays, List.filter_map, List.length_map] at hlength
  exact hlength

/-! ### Rows -/

/-- What the user's workdays of a week leave, each of them no less than nothing. -/
def availableMinutes (capacity : Option WorkloadCapacity) (timeOff : List WorkloadTimeOff) (user : User)
    (monday : ℤ) : ℚ :=
  ((workdaysOf (workdayMaskOf capacity) monday).map fun day =>
    max 0 (dailyCapacityOf capacity - timeOffOn timeOff user (dailyCapacityOf capacity) day)).sum

variable {capacities : List WorkloadCapacity} {allocatedByUser : Uuid → Allocation}
  {row : WorkloadRow} (capacity : Option WorkloadCapacity)

theorem configuredCapacity_nonneg : 0 ≤ configuredCapacity capacity := le_max_left _ _

theorem dailyCapacityOf_nonneg : 0 ≤ dailyCapacityOf capacity := by
  unfold dailyCapacityOf
  dsimp only
  split
  · exact le_rfl
  · exact div_nonneg (configuredCapacity_nonneg capacity) (Nat.cast_nonneg _)

theorem min_add_max (cap off : ℚ) : min cap off + max 0 (cap - off) = cap := by
  rcases le_total off cap with h | h
  · rw [min_eq_right h, max_eq_right (sub_nonneg.mpr h), add_sub_cancel]
  · rw [min_eq_left h, max_eq_left (sub_nonpos.mpr h), add_zero]

theorem length_mul_dailyCapacityOf (hmonday : weekday monday = 1)
    (hworkdays : workdays (workdayMaskOf capacity) ≠ []) :
    ((workdaysOf (workdayMaskOf capacity) monday).map fun _ => dailyCapacityOf capacity).sum =
      configuredCapacity capacity := by
  have hlength : ((workdays (workdayMaskOf capacity)).length : ℚ) ≠ 0 := by
    rw [Nat.cast_ne_zero, Ne, List.length_eq_zero_iff]
    exact hworkdays
  rw [List.map_const', List.sum_replicate, length_workdaysOf hmonday, nsmul_eq_mul]
  unfold dailyCapacityOf
  dsimp only
  rw [if_neg hworkdays, mul_div_cancel₀ _ hlength]

theorem workdaysOf_eq_nil (hmonday : weekday monday = 1) (hworkdays : workdays mask = []) :
    workdaysOf mask monday = [] := by
  have hlength : (workdaysOf mask monday).length = (workdays mask).length :=
    length_workdaysOf hmonday
  rw [hworkdays] at hlength
  exact List.length_eq_zero_iff.mp hlength

variable (user timeOff) in
/-- **The capacity** of the workdays is cut into the time off and what is left. -/
theorem sum_min_add_available (hmonday : weekday monday = 1)
    (hworkdays : workdays (workdayMaskOf capacity) ≠ []) :
    ((workdaysOf (workdayMaskOf capacity) monday).map fun day =>
        min (dailyCapacityOf capacity) (timeOffOn timeOff user (dailyCapacityOf capacity) day)).sum +
      availableMinutes capacity timeOff user monday = configuredCapacity capacity := by
  unfold availableMinutes
  rw [← List.sum_map_add, ← length_mul_dailyCapacityOf capacity hmonday hworkdays]
  refine congrArg List.sum (List.map_congr_left fun day _ => ?_)
  exact min_add_max _ _

theorem availableMinutes_nonneg : 0 ≤ availableMinutes capacity timeOff user monday := by
  refine List.sum_nonneg fun x hx => ?_
  obtain ⟨day, -, rfl⟩ := List.mem_map.mp hx
  exact le_max_left _ _

variable (user timeOff) in
theorem effectiveCapacity_eq (hmonday : weekday monday = 1) :
    max 0 (configuredCapacity capacity - ((workdaysOf (workdayMaskOf capacity) monday).map fun day =>
        min (dailyCapacityOf capacity) (timeOffOn timeOff user (dailyCapacityOf capacity) day)).sum) =
      configuredCapacity capacity - ((workdaysOf (workdayMaskOf capacity) monday).map fun day =>
        min (dailyCapacityOf capacity) (timeOffOn timeOff user (dailyCapacityOf capacity) day)).sum ∧
    configuredCapacity capacity - ((workdaysOf (workdayMaskOf capacity) monday).map fun day =>
        min (dailyCapacityOf capacity) (timeOffOn timeOff user (dailyCapacityOf capacity) day)).sum =
      if workdays (workdayMaskOf capacity) = [] then configuredCapacity capacity
      else availableMinutes capacity timeOff user monday := by
  by_cases hworkdays : workdays (workdayMaskOf capacity) = []
  · rw [workdaysOf_eq_nil hmonday hworkdays, List.map_nil, List.sum_nil, sub_zero, if_pos hworkdays]
    exact ⟨max_eq_right (configuredCapacity_nonneg capacity), rfl⟩
  · have hcut := sum_min_add_available user timeOff capacity hmonday hworkdays
    rw [if_neg hworkdays, ← hcut, add_sub_cancel_left]
    exact ⟨max_eq_right (availableMinutes_nonneg capacity), rfl⟩

/-- The API accepts the minutes and the mask. -/
def WorkloadCapacity.Accepted (capacity : WorkloadCapacity) : Prop :=
  ∃ body userId input, parseWorkloadCapacityInput body userId = .ok input ∧
    capacity.weeklyMinutes = input.weeklyMinutes ∧ capacity.workdayMask = input.workdayMask

theorem WorkloadCapacity.Accepted.taken {capacity : WorkloadCapacity} (h : capacity.Accepted) :
    configuredCapacity (some capacity) = capacity.weeklyMinutes ∧
      workdayMaskOf (some capacity) = capacity.workdayMask := by
  obtain ⟨body, userId, input, hparse, hweekly, hmask⟩ := h
  obtain ⟨⟨hminutes, -⟩, hbits, -⟩ := parseWorkloadCapacityInput_ok hparse
  rw [← hweekly] at hminutes
  rw [← hmask] at hbits
  have hnonneg : (0 : ℚ) ≤ capacity.weeklyMinutes := by
    exact_mod_cast hminutes
  exact ⟨max_eq_right hnonneg, if_pos hbits⟩

/-- What is known of a row. -/
structure RowCapacity (capacity : Option WorkloadCapacity) (timeOff : List WorkloadTimeOff)
    (monday : ℤ) (row : WorkloadRow) : Prop where
  configured : row.configuredCapacityMinutes = configuredCapacity capacity
  accepted : ∀ c, capacity = some c → c.Accepted →
    row.configuredCapacityMinutes = c.weeklyMinutes ∧ workdayMaskOf capacity = c.workdayMask
  split : row.timeOffMinutes + row.effectiveCapacityMinutes = row.configuredCapacityMinutes
  effective : row.effectiveCapacityMinutes =
    if workdays (workdayMaskOf capacity) = [] then configuredCapacity capacity
    else availableMinutes capacity timeOff row.user monday

theorem workloadRow_ok (hweek : IsoWeek value monday) (htimeOff : ∀ e ∈ timeOff, e.Accepted)
    (h : workloadRow capacities timeOff (startOfIsoWeek value) allocatedByUser user = .ok row) :
    row.user = user ∧ row.allocatedMinutes = (allocatedByUser user.id).minutes ∧
      RowCapacity (capacityOf capacities user) timeOff monday row := by
  have hdaily := dailyCapacityOf_nonneg (capacityOf capacities user)
  have hconfigured := configuredCapacity_nonneg (capacityOf capacities user)
  unfold workloadRow at h
  rw [hweek.start] at h
  dsimp only at h
  rw [reductions_eq hweek htimeOff] at h
  cases h
  obtain ⟨hmax, hleft⟩ := effectiveCapacity_eq user timeOff (capacityOf capacities user)
    hweek.weekday_eq
  refine ⟨rfl, rfl, rfl, fun c hc haccepted => ?_, ?_, ?_⟩
  · dsimp only
    rw [hc]
    exact haccepted.taken
  · dsimp only
    rw [timeOffMinutes_eq htimeOff hdaily, hmax, add_sub_cancel]
  · dsimp only
    rw [timeOffMinutes_eq htimeOff hdaily, hmax, hleft]

/-- **The order of the entries** does not matter. -/
theorem workloadRow_comm (hweek : IsoWeek value monday) (hperm : timeOff'.Perm timeOff)
    (htimeOff : ∀ e ∈ timeOff, e.Accepted) :
    workloadRow capacities timeOff' (startOfIsoWeek value) allocatedByUser user =
      workloadRow capacities timeOff (startOfIsoWeek value) allocatedByUser user := by
  have htimeOff' : ∀ e ∈ timeOff', e.Accepted := fun e he => htimeOff e (hperm.mem_iff.mp he)
  have hdaily := dailyCapacityOf_nonneg (capacityOf capacities user)
  have hadded := Capped.addAll_comm (hperm.flatMap_right (entryAdds monday
    (workdayMaskOf (capacityOf capacities user)) (dailyCapacityOf (capacityOf capacities user)) user))
    (adds_nonneg htimeOff' hdaily) hdaily
  unfold workloadRow
  rw [hweek.start]
  dsimp only
  rw [reductions_eq hweek htimeOff, reductions_eq hweek htimeOff']
  show Except.ok _ = Except.ok _
  rw [(hadded.map Prod.snd).sum_eq, hadded.length_eq]

end CalmBoard.Workload
