import IpciBlockchain.Datalog.RingBuffer

namespace IpciBlockchain
namespace Datalog

open Foundation

/-!
# Where the ring iterator goes, and whether it stops

Below the window the pointers live on a ring of `max` slots and the iterator
walks it.  A pointer at or above the window has lost the ring: it climbs
through all remaining `u64` values, because only hitting `max` exactly resets
it, and gets back onto the ring only by wrapping at `2 ^ 64`.

Three facts about the loop follow: the walk on the ring, the climb off the
ring, and an invariant of the loops that never meet their end.  Together they
decide termination for every start, end and window, and they justify
`fuelBound`.
-/

/-- The slots of a positive window as a ring: entry `k` belongs in slot
`k % max`. -/
def slots (max : UInt64) (positive : 0 < max.toNat) : CellRing UInt64 where
  size := max.toNat
  place := fun k => UInt64.ofNat (k % max.toNat)
  size_pos := positive
  periodic := by
    intro k
    simp only [Nat.add_mod_right]
  injective := by
    intro j k jInside kInside equal
    have bound := max.toNat_lt
    have values := congrArg UInt64.toNat equal
    rw [Nat.mod_eq_of_lt jInside, Nat.mod_eq_of_lt kInside,
      UInt64.toNat_ofNat', UInt64.toNat_ofNat', Nat.mod_eq_of_lt (by omega),
      Nat.mod_eq_of_lt (by omega)] at values
    exact values

section Slots

variable {max : UInt64} (positive : 0 < max.toNat)

@[simp] theorem slots_size : (slots max positive).size = max.toNat := rfl

@[simp] theorem slots_place_toNat (k : ℕ) :
    ((slots max positive).place k).toNat = k % max.toNat := by
  have bound := max.toNat_lt
  have inside := Nat.mod_lt k positive
  have fits : k % max.toNat < 2 ^ 64 := by omega
  exact (UInt64.toNat_ofNat' (n := k % max.toNat)).trans (Nat.mod_eq_of_lt fits)

theorem slots_place_lt (k : ℕ) : (slots max positive).place k < max := by
  rw [UInt64.lt_iff_toNat_lt, slots_place_toNat]
  exact Nat.mod_lt k positive

/-- A slot below the window is the place of its own number. -/
theorem slots_place_of_lt {slot : UInt64} (inside : slot < max) :
    (slots max positive).place slot.toNat = slot := by
  apply UInt64.toNat_inj.mp
  rw [slots_place_toNat, Nat.mod_eq_of_lt (UInt64.lt_iff_toNat_lt.mp inside)]

theorem slots_place_zero : (slots max positive).place 0 = 0 := by
  apply UInt64.toNat_inj.mp
  rw [slots_place_toNat, Nat.zero_mod]
  rfl

end Slots

/-- The slots with consecutive numbers. -/
def numbers (start count : ℕ) : List UInt64 :=
  (List.range' start count).map UInt64.ofNat

theorem mem_numbers {start count : ℕ} (slot : UInt64) (low : start ≤ slot.toNat)
    (high : slot.toNat < start + count) : slot ∈ numbers start count :=
  List.mem_map.mpr ⟨slot.toNat, List.mem_range'_1.mpr ⟨low, high⟩, UInt64.ofNat_toNat⟩

theorem numbers_sublist (start : ℕ) {count longer : ℕ} (le : count ≤ longer) :
    (numbers start count).Sublist (numbers start longer) := by
  rcases Nat.exists_eq_add_of_le le with ⟨extra, rfl⟩
  rw [numbers, numbers, ← List.range'_append_1, List.map_append]
  exact List.sublist_append_left _ _

/-! ## One step of a pointer -/

namespace RingBufferIndex

private theorem toNat_add_one (val : UInt64) : (val + 1).toNat = (val.toNat + 1) % 2 ^ 64 :=
  UInt64.toNat_add val 1

/-- On the ring a pointer steps to the next slot and never wraps at `2 ^ 64`. -/
theorem next_toNat_of_lt {val max : UInt64} (inside : val < max) :
    (next val max).toNat = if val.toNat + 1 = max.toNat then 0 else val.toNat + 1 := by
  have bound := max.toNat_lt
  have less := UInt64.lt_iff_toNat_lt.mp inside
  have step : (val + 1).toNat = val.toNat + 1 := by
    rw [toNat_add_one, Nat.mod_eq_of_lt (by omega)]
  simp only [next]
  by_cases atEnd : val + 1 = max
  · rw [if_pos atEnd, if_pos (step ▸ congrArg UInt64.toNat atEnd)]
    rfl
  · have notEnd : val.toNat + 1 ≠ max.toNat := by
      intro equal
      exact atEnd (UInt64.toNat_inj.mp (step.trans equal))
    rw [if_neg atEnd, if_neg notEnd, step]

/-- Off the ring a pointer is an ordinary wrapping counter. -/
theorem next_toNat_of_le {val max : UInt64} (outside : max ≤ val) :
    (next val max).toNat = (val.toNat + 1) % 2 ^ 64 := by
  have bound := val.toNat_lt
  have less := UInt64.le_iff_toNat_le.mp outside
  simp only [next]
  by_cases atEnd : val + 1 = max
  · have values := congrArg UInt64.toNat atEnd
    rw [toNat_add_one] at values
    rw [if_pos atEnd, UInt64.toNat_zero]
    omega
  · rw [if_neg atEnd, toNat_add_one]

theorem next_lt {val max : UInt64} (inside : val < max) : next val max < max := by
  have less := UInt64.lt_iff_toNat_lt.mp inside
  rw [UInt64.lt_iff_toNat_lt, next_toNat_of_lt inside]
  split <;> omega

/-- Stepping a pointer is stepping the entry it stands for. -/
theorem next_place {max : UInt64} (positive : 0 < max.toNat) (k : ℕ) :
    next ((slots max positive).place k) max = (slots max positive).place (k + 1) := by
  apply UInt64.toNat_inj.mp
  rw [next_toNat_of_lt (slots_place_lt positive k), slots_place_toNat, slots_place_toNat]
  have inside := Nat.mod_lt k positive
  by_cases atEnd : k % max.toNat + 1 = max.toNat
  · rw [if_pos atEnd, ← Nat.mod_add_mod, atEnd, Nat.mod_self]
  · have notLast : k % max.toNat + 1 < max.toNat := by omega
    rw [if_neg atEnd, ← Nat.mod_add_mod, Nat.mod_eq_of_lt notLast]

/-- Both pointers stay on the ring. -/
theorem add_lt {index : RingBufferIndex} {max : UInt64} (startInside : index.start < max)
    (endInside : index.end_ < max) :
    (index.add max).2.start < max ∧ (index.add max).2.end_ < max := by
  unfold add
  dsimp only
  split
  · exact ⟨next_lt startInside, next_lt endInside⟩
  · exact ⟨startInside, next_lt endInside⟩

end RingBufferIndex

/-! ## The two kinds of loop iteration -/

open RingBufferIndex

theorem drain_of_meet (fuel : ℕ) (pointer max : UInt64) :
    (iter ⟨pointer, pointer⟩ max).drain (fuel + 1) = some ([], iter ⟨pointer, pointer⟩ max) := by
  simp only [RingBufferIterator.drain, RingBufferIterator.next, iter, if_pos]

theorem drain_of_ne (fuel : ℕ) {start stop : UInt64} (max : UInt64) (apart : stop ≠ start) :
    (iter ⟨start, stop⟩ max).drain (fuel + 1) =
      ((iter ⟨next start max, stop⟩ max).drain fuel).map
        fun drained => (start :: drained.1, drained.2) := by
  simp only [RingBufferIterator.drain, RingBufferIterator.next, iter, apart, if_false]

/-! ## The walk on the ring -/

/-- On the ring the loop visits the slots of consecutive entries and stops at
its end, leaving both pointers there. -/
theorem drain_window {max : UInt64} (positive : 0 < max.toNat) (start count fuel : ℕ)
    (short : count < max.toNat) (enough : count < fuel) :
    (iter ⟨(slots max positive).place start, (slots max positive).place (start + count)⟩ max).drain
        fuel =
      some ((slots max positive).window start count,
        iter ⟨(slots max positive).place (start + count),
          (slots max positive).place (start + count)⟩ max) := by
  have call : ∃ less, fuel = less + 1 := ⟨fuel - 1, by omega⟩
  rcases call with ⟨fuel, rfl⟩
  induction count generalizing start fuel with
  | zero => exact drain_of_meet fuel _ max
  | succ count ih =>
      have call : ∃ less, fuel = less + 1 := ⟨fuel - 1, by omega⟩
      rcases call with ⟨less, rfl⟩
      have apart := (slots max positive).place_ne_of_lt (j := start) (k := start + (count + 1))
        (by omega) (by rw [slots_size]; omega)
      have rest := ih (start + 1) (by omega) less (by omega)
      have shift : start + 1 + count = start + (count + 1) := by omega
      rw [shift] at rest
      rw [drain_of_ne _ max apart.symm, next_place, rest]
      rfl

/-- The walk in terms of the pointers themselves. -/
theorem drain_of_lt {start stop max : UInt64} (startInside : start < max) (stopInside : stop < max)
    (positive : 0 < max.toNat) (fuel : ℕ) (enough : max.toNat ≤ fuel) :
    (iter ⟨start, stop⟩ max).drain fuel =
      some ((slots max positive).window start.toNat
        ((stop.toNat + max.toNat - start.toNat) % max.toNat), iter ⟨stop, stop⟩ max) := by
  have startLess := UInt64.lt_iff_toNat_lt.mp startInside
  have stopLess := UInt64.lt_iff_toNat_lt.mp stopInside
  have short := Nat.mod_lt (stop.toNat + max.toNat - start.toNat) positive
  have arrives : (slots max positive).place
      (start.toNat + (stop.toNat + max.toNat - start.toNat) % max.toNat) = stop := by
    have turn : start.toNat + (stop.toNat + max.toNat - start.toNat) = stop.toNat + max.toNat := by
      omega
    apply UInt64.toNat_inj.mp
    rw [slots_place_toNat, Nat.add_mod_mod, turn, Nat.add_mod_right, Nat.mod_eq_of_lt stopLess]
  have walk := drain_window positive start.toNat _ fuel short (by omega)
  rw [arrives, slots_place_of_lt positive startInside] at walk
  exact walk

/-! ## The climb off the ring -/

/-- Off the ring the loop visits consecutive numbers until it meets its end
or wraps at `2 ^ 64`. -/
theorem drain_climb {start stop max : UInt64} (outside : max ≤ start) (count fuel : ℕ)
    (room : start.toNat + count ≤ 2 ^ 64)
    (apart : ∀ step, step < count → stop.toNat ≠ start.toNat + step) :
    (iter ⟨start, stop⟩ max).drain (fuel + count) =
      ((iter ⟨UInt64.ofNat (start.toNat + count), stop⟩ max).drain fuel).map
        fun drained =>
          (numbers start.toNat count ++ drained.1, drained.2) := by
  induction count generalizing start with
  | zero =>
      rw [Nat.add_zero, Nat.add_zero, UInt64.ofNat_toNat]
      exact Option.map_id'.symm
  | succ count ih =>
      have bound := max.toNat_lt
      have outsideNat := UInt64.le_iff_toNat_le.mp outside
      have different : stop ≠ start := by
        intro equal
        exact apart 0 (by omega) (by rw [equal, Nat.add_zero])
      have stepped := next_toNat_of_le outside
      rw [← Nat.add_assoc, drain_of_ne _ max different]
      by_cases wraps : start.toNat + 1 = 2 ^ 64
      · have onlyStep : count = 0 := by omega
        subst onlyStep
        have zero : next start max = UInt64.ofNat (start.toNat + 1) := by
          apply UInt64.toNat_inj.mp
          rw [stepped, UInt64.toNat_ofNat']
        rw [zero, Nat.zero_add, numbers, List.range'_one, List.map_singleton,
          UInt64.ofNat_toNat]
        rfl
      · have value : (next start max).toNat = start.toNat + 1 := by
          rw [stepped, Nat.mod_eq_of_lt (by omega)]
        have higher : max ≤ next start max := by
          rw [UInt64.le_iff_toNat_le, value]
          omega
        have rest := ih higher (by omega) (by
          intro step inside
          have := apart (step + 1) (by omega)
          omega)
        have shift : start.toNat + 1 + count = start.toNat + (count + 1) := by omega
        rw [value, shift] at rest
        rw [rest, numbers, numbers, List.range'_succ, List.map_cons, UInt64.ofNat_toNat,
          Option.map_map]
        rfl

/-- A loop that starts off the ring below its end meets it by counting up. -/
theorem drain_of_le {start stop max : UInt64} (outside : max ≤ start) (below : start ≤ stop)
    (fuel : ℕ) (enough : stop.toNat - start.toNat < fuel) :
    (iter ⟨start, stop⟩ max).drain fuel =
      some (numbers start.toNat (stop.toNat - start.toNat), iter ⟨stop, stop⟩ max) := by
  have order := UInt64.le_iff_toNat_le.mp below
  have bound := stop.toNat_lt
  have call : ∃ spare, fuel = spare + 1 + (stop.toNat - start.toNat) :=
    ⟨fuel - (stop.toNat - start.toNat) - 1, by omega⟩
  rcases call with ⟨spare, rfl⟩
  have arrives : start.toNat + (stop.toNat - start.toNat) = stop.toNat := by omega
  rw [drain_climb outside _ _ (by omega) (by intro step inside; omega), arrives,
    UInt64.ofNat_toNat, drain_of_meet, Option.map_some, List.append_nil]

/-- A climb that nothing stops ends in slot zero. -/
theorem climb_arrives (start : UInt64) :
    UInt64.ofNat (start.toNat + (2 ^ 64 - start.toNat)) = 0 := by
  have bound := start.toNat_lt
  have total : start.toNat + (2 ^ 64 - start.toNat) = 2 ^ 64 := by omega
  rw [total]
  rfl

/-- A loop that starts off the ring while its end is on the ring runs through
every number up to `2 ^ 64` and then walks the ring from slot zero. -/
theorem drain_of_wrap {start stop max : UInt64} (outside : max ≤ start) (inside : stop < max)
    (positive : 0 < max.toNat) (fuel : ℕ) (enough : max.toNat ≤ fuel) :
    (iter ⟨start, stop⟩ max).drain (fuel + (2 ^ 64 - start.toNat)) =
      some (numbers start.toNat (2 ^ 64 - start.toNat) ++
        (slots max positive).window 0 stop.toNat, iter ⟨stop, stop⟩ max) := by
  have outsideNat := UInt64.le_iff_toNat_le.mp outside
  have insideNat := UInt64.lt_iff_toNat_lt.mp inside
  have bound := start.toNat_lt
  have zeroInside : (0 : UInt64) < max := UInt64.lt_iff_toNat_lt.mpr positive
  have distance : (stop.toNat + max.toNat - (0 : UInt64).toNat) % max.toNat = stop.toNat := by
    rw [UInt64.toNat_zero, Nat.sub_zero, Nat.add_mod_right, Nat.mod_eq_of_lt insideNat]
  rw [drain_climb outside _ _ (by omega) (by intro step _; omega), climb_arrives,
    drain_of_lt zeroInside inside positive fuel enough, distance, Option.map_some,
    UInt64.toNat_zero]

/-- Before the counter has wrapped such a loop has not ended. -/
theorem drain_eq_none_of_climb {start stop max : UInt64} (outside : max ≤ start)
    (inside : stop < max) {calls : ℕ} (few : calls ≤ 2 ^ 64 - start.toNat) :
    (iter ⟨start, stop⟩ max).drain calls = none := by
  have outsideNat := UInt64.le_iff_toNat_le.mp outside
  have insideNat := UInt64.lt_iff_toNat_lt.mp inside
  have bound := start.toNat_lt
  have climb : (iter ⟨start, stop⟩ max).drain (0 + calls) = _ :=
    drain_climb outside calls 0 (by omega) (by intro step _; omega)
  rw [Nat.zero_add] at climb
  exact climb

/-! ## The loops that never stop -/

/-- If the end lies off the ring and the start is on the ring or already past
the end, the pointers never meet: the start goes round the ring for ever, in
the second case after one climb. -/
theorem drain_eq_none {start stop max : UInt64} (positive : 0 < max) (beyond : max ≤ stop)
    (escaped : start < max ∨ stop < start) (fuel : ℕ) :
    (iter ⟨start, stop⟩ max).drain fuel = none := by
  induction fuel generalizing start with
  | zero => rfl
  | succ fuel ih =>
      have positiveNat := UInt64.lt_iff_toNat_lt.mp positive
      have beyondNat := UInt64.le_iff_toNat_le.mp beyond
      have different : stop ≠ start := by
        rintro rfl
        simp only [UInt64.lt_iff_toNat_lt] at escaped
        omega
      have escapedNext : next start max < max ∨ stop < next start max := by
        rcases escaped with onRing | past
        · exact Or.inl (next_lt onRing)
        · have bound := start.toNat_lt
          have pastNat := UInt64.lt_iff_toNat_lt.mp past
          have stepped := next_toNat_of_le (UInt64.le_trans beyond (UInt64.le_of_lt past))
          simp only [UInt64.lt_iff_toNat_lt, stepped]
          rw [UInt64.toNat_zero] at positiveNat
          omega
      rw [drain_of_ne fuel max different, ih escapedNext, Option.map_none]

/-! ## Termination -/

/-- The exact inputs on which the loop stops, for a positive window. -/
theorem terminates_iff {max : UInt64} (positive : 0 < max) (index : RingBufferIndex) :
    (index.iter max).Terminates ↔
      index.end_ < max ∨ (max ≤ index.start ∧ index.start ≤ index.end_) := by
  rcases index with ⟨start, stop⟩
  have positiveNat : 0 < max.toNat := UInt64.lt_iff_toNat_lt.mp positive
  constructor
  · rintro ⟨fuel, outcome, drained⟩
    by_contra neither
    rcases not_or.mp neither with ⟨notInside, notClimb⟩
    have beyond : max ≤ stop := UInt64.not_lt.mp notInside
    have escaped : start < max ∨ stop < start := by
      by_cases onRing : start < max
      · exact Or.inl onRing
      · exact Or.inr (UInt64.not_le.mp fun below => notClimb ⟨UInt64.not_lt.mp onRing, below⟩)
    rw [drain_eq_none positive beyond escaped fuel] at drained
    cases drained
  · rintro (inside | ⟨outside, below⟩)
    · by_cases onRing : start < max
      · exact ⟨_, _, drain_of_lt onRing inside positiveNat max.toNat le_rfl⟩
      · exact ⟨_, _, drain_of_wrap (UInt64.not_lt.mp onRing) inside positiveNat max.toNat le_rfl⟩
    · exact ⟨_, _, drain_of_le outside below _ (Nat.lt_succ_self _)⟩

/-- A walk round the ring is within the bound. -/
theorem toNat_le_fuelBound (max : UInt64) : max.toNat ≤ RingBufferIterator.fuelBound :=
  max.toNat_lt.le

/-- The bound leaves enough calls for a climb from any start, and for as many
more as the start has numbers below it. -/
theorem fuelBound_eq (start : UInt64) :
    RingBufferIterator.fuelBound = start.toNat + (2 ^ 64 - start.toNat) := by
  have bound := start.toNat_lt
  unfold RingBufferIterator.fuelBound
  omega

/-- `fuelBound` decides termination: a loop that has not ended after as many
calls as there are `u64` values never ends.  This covers the window zero as
well, whose ring is all of `u64`. -/
theorem collect_isSome_iff (index : RingBufferIndex) (max : UInt64) :
    (index.iter max).collect.isSome = true ↔ (index.iter max).Terminates := by
  rcases index with ⟨start, stop⟩
  have bound := max.toNat_lt
  have startBound := start.toNat_lt
  have stopBound := stop.toNat_lt
  constructor
  · intro collected
    rcases Option.isSome_iff_exists.mp
      ((Option.isSome_map ..).symm.trans collected) with ⟨outcome, drained⟩
    exact ⟨RingBufferIterator.fuelBound, outcome, drained⟩
  · intro terminates
    unfold RingBufferIterator.collect
    rw [Option.isSome_map]
    by_cases below : max ≤ start ∧ start ≤ stop
    · rw [drain_of_le below.1 below.2 _ (by unfold RingBufferIterator.fuelBound; omega),
        Option.isSome_some]
    · by_cases zero : max = 0
      · subst zero
        have past : stop.toNat < start.toNat := by
          have notBelow := fun order => below ⟨UInt64.zero_le, UInt64.le_iff_toNat_le.mpr order⟩
          exact Nat.lt_of_not_le notBelow
        rw [fuelBound_eq start, drain_climb UInt64.zero_le _ _ (by omega)
          (by intro step _; omega), Option.isSome_map, climb_arrives,
          drain_of_le UInt64.zero_le UInt64.zero_le _ (by rw [UInt64.toNat_zero]; omega),
          Option.isSome_some]
      · have positive : 0 < max := UInt64.pos_iff_ne_zero.mpr zero
        have positiveNat : 0 < max.toNat := UInt64.lt_iff_toNat_lt.mp positive
        have inside := ((terminates_iff positive _).mp terminates).resolve_right below
        by_cases onRing : start < max
        · rw [drain_of_lt onRing inside positiveNat _ (toNat_le_fuelBound max),
            Option.isSome_some]
        · have outside := UInt64.not_lt.mp onRing
          have outsideNat := UInt64.le_iff_toNat_le.mp outside
          rw [fuelBound_eq start, drain_of_wrap outside inside positiveNat _ outsideNat,
            Option.isSome_some]

/-- On the ring the whole loop visits the consecutive slots from its start to
its end. -/
theorem collect_window {max : UInt64} (positive : 0 < max.toNat) (start count : ℕ)
    (short : count < max.toNat) :
    (iter ⟨(slots max positive).place start,
        (slots max positive).place (start + count)⟩ max).collect =
      some ((slots max positive).window start count) := by
  unfold RingBufferIterator.collect
  rw [drain_window positive start count _ short (short.trans_le (toNat_le_fuelBound max)),
    Option.map_some]

/-! ## Complete loops by slot numbers -/

theorem window_eq_numbers {max : UInt64} (positive : 0 < max.toNat) (start count : ℕ)
    (inside : start + count ≤ max.toNat) :
    (slots max positive).window start count = numbers start count := by
  apply List.map_congr_left
  intro k member
  have bounds := List.mem_range'_1.mp member
  change UInt64.ofNat (k % max.toNat) = UInt64.ofNat k
  rw [Nat.mod_eq_of_lt (by omega)]

/-- A walk across the end of the window continues at slot zero. -/
theorem window_wrap {max : UInt64} (positive : 0 < max.toNat) {start stop : ℕ}
    (inside : start ≤ max.toNat) (below : stop ≤ start) :
    (slots max positive).window start (max.toNat - start + stop) =
      numbers start (max.toNat - start) ++ numbers 0 stop := by
  have second : (slots max positive).window max.toNat stop = numbers 0 stop := by
    rw [← window_eq_numbers positive 0 stop (by omega)]
    simp only [CellRing.window, List.range'_eq_map_range, List.map_map]
    apply List.map_congr_left
    intro k _
    have turn := (slots max positive).periodic k
    rw [slots_size, Nat.add_comm] at turn
    simp only [Function.comp_apply, Nat.zero_add]
    exact turn
  have first := window_eq_numbers positive start (max.toNat - start) (by omega)
  have turn : start + (max.toNat - start) = max.toNat := by omega
  unfold CellRing.window at first second ⊢
  rw [← first, ← second, ← List.range'_append_1, List.map_append, turn]

/-- On the ring the loop counts from its start to its end, in two stretches
if its end comes first. -/
theorem collect_of_lt {index : RingBufferIndex} {max : UInt64} (startInside : index.start < max)
    (endInside : index.end_ < max) :
    (index.iter max).collect =
      some (if index.end_ < index.start then
          numbers index.start.toNat (max.toNat - index.start.toNat) ++
            numbers 0 index.end_.toNat
        else numbers index.start.toNat (index.end_.toNat - index.start.toNat)) := by
  have startNat := UInt64.lt_iff_toNat_lt.mp startInside
  have endNat := UInt64.lt_iff_toNat_lt.mp endInside
  have positive : 0 < max.toNat := by omega
  unfold RingBufferIterator.collect
  rw [drain_of_lt startInside endInside positive _ (toNat_le_fuelBound max), Option.map_some]
  by_cases wrapped : index.end_ < index.start
  · have order := UInt64.lt_iff_toNat_lt.mp wrapped
    have count : index.end_.toNat + max.toNat - index.start.toNat =
        max.toNat - index.start.toNat + index.end_.toNat := by omega
    rw [if_pos wrapped, Nat.mod_eq_of_lt (by omega), count,
      window_wrap positive startNat.le order.le]
  · have order := UInt64.le_iff_toNat_le.mp (UInt64.not_lt.mp wrapped)
    have count : index.end_.toNat + max.toNat - index.start.toNat =
        index.end_.toNat - index.start.toNat + max.toNat := by omega
    rw [if_neg wrapped, count, Nat.add_mod_right, Nat.mod_eq_of_lt (by omega),
      window_eq_numbers positive _ _ (by omega)]

/-! ## No increment overflows on the ring -/

theorem nextChecked_eq_next {val max : UInt64} (inside : val < max) :
    nextChecked val max = some (next val max) := by
  have bound := max.toNat_lt
  have less := UInt64.lt_iff_toNat_lt.mp inside
  unfold nextChecked
  rw [if_pos (by omega)]

theorem addChecked_eq_add {index : RingBufferIndex} {max : UInt64}
    (startInside : index.start < max) (endInside : index.end_ < max) :
    index.addChecked max = some (index.add max) := by
  simp only [addChecked, add, nextChecked_eq_next startInside, nextChecked_eq_next endInside,
    Option.bind_eq_bind, Option.bind_some, Option.pure_def]
  split <;> rfl

theorem drainChecked_eq_drain {start max : UInt64} (startInside : start < max) (stop : UInt64)
    (fuel : ℕ) :
    (iter ⟨start, stop⟩ max).drainChecked fuel = (iter ⟨start, stop⟩ max).drain fuel := by
  induction fuel generalizing start with
  | zero => rfl
  | succ fuel ih =>
      by_cases meets : stop = start
      · subst meets
        rw [drain_of_meet, RingBufferIterator.drainChecked, iter, if_pos rfl]
      · rw [drain_of_ne fuel max meets, ← ih (next_lt startInside)]
        simp only [RingBufferIterator.drainChecked, iter, meets, if_false,
          nextChecked_eq_next startInside, Option.bind_some]

/-! ## The loop in closed form -/

/-- What the loop yields between two pointers below the window, and how it
leaves the index. -/
structure DrainsRing (index : RingBufferIndex) (max : UInt64) (visited : List UInt64) : Prop where
  length_eq : visited.length = (index.end_.toNat + max.toNat - index.start.toNat) % max.toNat
  getElem_eq : ∀ k (inside : k < visited.length),
    visited[k].toNat = (index.start.toNat + k) % max.toNat
  nodup : visited.Nodup
  lt : ∀ slot ∈ visited, slot < max
  /-- Every loop of enough calls yields these slots and moves the start to the end. -/
  drain_eq : ∀ fuel, max.toNat ≤ fuel →
    (index.iter max).drain fuel = some (visited, iter ⟨index.end_, index.end_⟩ max)
  /-- No increment overflows. -/
  drainChecked_eq : ∀ fuel, max.toNat ≤ fuel →
    (index.iter max).drainChecked fuel = some (visited, iter ⟨index.end_, index.end_⟩ max)

theorem drainsRing_window {index : RingBufferIndex} {max : UInt64}
    (startInside : index.start < max) (endInside : index.end_ < max) (positive : 0 < max.toNat) :
    DrainsRing index max ((slots max positive).window index.start.toNat
      ((index.end_.toNat + max.toNat - index.start.toNat) % max.toNat)) := by
  have short := Nat.mod_lt (index.end_.toNat + max.toNat - index.start.toNat) positive
  have drains := drain_of_lt startInside endInside positive
  refine ⟨CellRing.length_window _ _ _, ?_, CellRing.window_nodup _ _ _ short.le, ?_, drains, ?_⟩
  · intro k inside
    simp only [CellRing.window, List.getElem_map, List.getElem_range', Nat.one_mul,
      slots_place_toNat]
  · intro slot member
    rcases (CellRing.mem_window _ _ _ _).mp member with ⟨k, _, _, rfl⟩
    exact slots_place_lt positive k
  · intro fuel enough
    exact (drainChecked_eq_drain startInside index.end_ fuel).trans (drains fuel enough)

/-- For every positive window the loop over the ring stops exactly when its
end lies below the window, or its start climbs towards its end from above it.
Below the window it yields the slots from start to end in closed form. -/
theorem iterator_stops_and_yields (max : UInt64) (positive : 1 ≤ max) (index : RingBufferIndex) :
    ((index.iter max).Terminates ↔
      index.end_ < max ∨ (max ≤ index.start ∧ index.start ≤ index.end_)) ∧
    (index.start < max → index.end_ < max → ∃ visited, DrainsRing index max visited) := by
  have positiveNat : 0 < max.toNat := UInt64.le_iff_toNat_le.mp positive
  constructor
  · exact terminates_iff (UInt64.lt_iff_toNat_lt.mpr positiveNat) index
  · intro startInside endInside
    exact ⟨_, drainsRing_window startInside endInside positiveNat⟩

theorem iterator_stops_and_yields_wrapped :
    (((⟨2, 1⟩ : RingBufferIndex).iter 3).Terminates ↔
      (1 : UInt64) < 3 ∨ ((3 : UInt64) ≤ 2 ∧ (2 : UInt64) ≤ 1)) ∧
    ∃ visited, DrainsRing ⟨2, 1⟩ 3 visited :=
  have atThree := iterator_stops_and_yields 3 (by decide) ⟨2, 1⟩
  ⟨atThree.1, atThree.2 (by decide) (by decide)⟩

end Datalog
end IpciBlockchain
