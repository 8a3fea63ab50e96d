import Mathlib.Tactic.Linarith
import Mathlib.Tactic.NormNum
import ManagementSensors.Mqtt.Sensors

/-!
# Mqtt/Telemetry — a temperature, from the sensor's producer to `sensor_state`

    double ──std::round──▸ hundredths ──/ 100──▸ double ──JSON──▸ double ──text, NUMERIC──▸ hundredths

The producer rounds a temperature to hundredths, in doubles, and the column rounds the text of what
arrives to hundredths again.  The doubles are off by so little that the second rounding undoes them:
the column holds the hundredths of the producer (`numeric52_sent`).  So the loop takes every message
of every producer while the connection to the database is up, and each sensor shows the temperature
it has sent last; a connection that is closed, or lost with an `sql_error`, ends the loop, and any
other loss costs the temperatures that are not committed (`telemetry_stored`).
-/

open Machinery

namespace ManagementSensors

/-! ## Rounding -/

/-- `std::round`: to the nearest integer, halves away from zero. -/
def stdRound (x : ℚ) : ℤ := if 0 ≤ x then ⌊x + 1 / 2⌋ else -⌊-x + 1 / 2⌋

theorem stdRound_eq {x : ℚ} {n : ℤ} (h : |x - n| < 1 / 2) : stdRound x = n := by
  obtain ⟨hlow, hhigh⟩ := abs_lt.mp h
  rw [stdRound]
  split
  · rw [Int.floor_eq_iff]
    constructor <;> linarith
  · rw [neg_eq_iff_eq_neg, Int.floor_eq_iff, Int.cast_neg]
    constructor <;> linarith

theorem abs_stdRound_sub_le (x : ℚ) : |(stdRound x : ℚ) - x| ≤ 1 / 2 := by
  rw [stdRound, abs_le]
  split
  · have hle := Int.floor_le (x + 1 / 2)
    have hlt := Int.lt_floor_add_one (x + 1 / 2)
    constructor <;> linarith
  · have hle := Int.floor_le (-x + 1 / 2)
    have hlt := Int.lt_floor_add_one (-x + 1 / 2)
    rw [Int.cast_neg]
    constructor <;> linarith

/-- NUMERIC(5, 2) rounds the hundredths of a number as `std::round` does. -/
theorem numeric52_eq {x : ℚ} {n : ℤ} (hn : n.natAbs < 100000) (h : |100 * x - n| < 1 / 2) :
    numeric52 x = some ⟨n, hn⟩ := by
  have hround : (if 0 ≤ x then ⌊100 * x + 1 / 2⌋ else -⌊-(100 * x) + 1 / 2⌋) = n := by
    rw [← stdRound_eq h, stdRound]
    by_cases hx : 0 ≤ x
    · rw [if_pos hx, if_pos (by linarith)]
    · rw [if_neg hx, if_neg (by linarith)]
  simp only [numeric52, hround, hn, dite_true]

/-- **Doubles, as far as a temperature needs them**: the result of an operation is rounded, and so is
what is parsed of the JSON text of a double. -/
structure Doubles where
  round : ℚ → ℚ
  reparse : ℚ → ℚ
  round_near : ∀ x, 1 ≤ x → x ≤ 2 ^ 20 → |round x - x| ≤ x / 2 ^ 53
  reparse_near : ∀ x, 1 ≤ x → x ≤ 2 ^ 20 → |reparse x - x| ≤ x / 2 ^ 50

/-- What is at least one has its 53 digits. -/
theorem normal_of_one_le {x : ℚ} (h : 1 ≤ x) : 1 / 2 ^ 1022 ≤ |x| :=
  le_trans (div_le_one_of_le₀ (one_le_pow₀ one_le_two) (by positivity)) (h.trans (le_abs_self x))

theorem abs_binary64_sub_le_of_one_le {x : ℚ} (h : 1 ≤ x) : |binary64 x - x| ≤ x / 2 ^ 53 := by
  have hnear := abs_binary64_sub_le (normal_of_one_le h)
  rwa [abs_of_nonneg (zero_le_one.trans h)] at hnear

theorem decimal_near_of_one_le [DoubleText] {x : ℚ} (h : 1 ≤ x) :
    |DoubleText.decimal x - x| ≤ x / 2 ^ 53 := by
  have hnear := DoubleText.decimal_near x (normal_of_one_le h)
  rwa [abs_of_nonneg (zero_le_one.trans h)] at hnear

/-- The nearest doubles, and a JSON text that says one exactly. -/
def nearestDoubles : Doubles where
  round := binary64
  reparse := id
  round_near _ h _ := abs_binary64_sub_le_of_one_le h
  reparse_near x h _ := by
    rw [id, sub_self, abs_zero]
    positivity

namespace Doubles

variable (D : Doubles) {temp : ℚ}

/-- The hundredths of a temperature: `std::round(temp * 100.0)`. -/
def hundredths (temp : ℚ) : ℤ := stdRound (D.round (temp * 100))

/-- `std::round(temp * 100.0) / 100.0`. -/
def sent (temp : ℚ) : ℚ := D.round (D.hundredths temp / 100)

/-- **The hundredths of a temperature of the producer** are those of its range, and less than half a
hundredth and a millionth away. -/
theorem hundredths_bounds (hlow : 30 ≤ temp) (hhigh : temp ≤ 80) :
    3000 ≤ D.hundredths temp ∧ D.hundredths temp ≤ 8000 ∧
      |(D.hundredths temp : ℚ) - 100 * temp| ≤ 1 / 2 + 1 / 10 ^ 6 := by
  have hnear := D.round_near (temp * 100) (by linarith) (by norm_num; linarith)
  have hsmall : temp * 100 / 2 ^ 53 ≤ 1 / 10 ^ 6 := by norm_num; linarith
  obtain ⟨hnear₁, hnear₂⟩ := abs_le.mp (hnear.trans hsmall)
  obtain ⟨hround₁, hround₂⟩ := abs_le.mp (abs_stdRound_sub_le (D.round (temp * 100)))
  change -(1 / 2) ≤ (D.hundredths temp : ℚ) - _ at hround₁
  change (D.hundredths temp : ℚ) - _ ≤ _ at hround₂
  have hmin : (2999 : ℚ) < D.hundredths temp := by linarith
  have hmax : (D.hundredths temp : ℚ) < 8001 := by linarith
  refine ⟨?_, ?_, ?_⟩
  · have hmin : (2999 : ℤ) < D.hundredths temp := by exact_mod_cast hmin
    omega
  · have hmax : D.hundredths temp < (8001 : ℤ) := by exact_mod_cast hmax
    omega
  · rw [abs_le]
    constructor <;> linarith

/-- **The second rounding undoes the doubles**: the column holds the hundredths of the producer. -/
theorem numeric52_sent [DoubleText] (hlow : 30 ≤ temp) (hhigh : temp ≤ 80) :
    ∃ h, numeric52 (DoubleText.decimal (D.reparse (D.sent temp))) =
      some ⟨D.hundredths temp, h⟩ := by
  obtain ⟨hmin, hmax, -⟩ := D.hundredths_bounds hlow hhigh
  have hmin' : (3000 : ℚ) ≤ D.hundredths temp := by exact_mod_cast hmin
  have hmax' : (D.hundredths temp : ℚ) ≤ 8000 := by exact_mod_cast hmax
  -- the quotient, as a double
  have hquot := D.round_near (D.hundredths temp / 100) (by linarith) (by norm_num; linarith)
  have hquot' : (D.hundredths temp : ℚ) / 100 / 2 ^ 53 ≤ 1 / 10 ^ 6 := by norm_num; linarith
  obtain ⟨hsent₁, hsent₂⟩ := abs_le.mp (hquot.trans hquot')
  change _ ≤ D.sent temp - _ at hsent₁
  change D.sent temp - _ ≤ _ at hsent₂
  -- what is parsed of its JSON text
  have hparsed := D.reparse_near (D.sent temp) (by linarith) (by norm_num; linarith)
  have hparsed' : D.sent temp / 2 ^ 50 ≤ 1 / 10 ^ 6 := by norm_num; linarith
  obtain ⟨hparsed₁, hparsed₂⟩ := abs_le.mp (hparsed.trans hparsed')
  -- the text of that
  have hone : 1 ≤ D.reparse (D.sent temp) := by linarith
  have htext := decimal_near_of_one_le hone
  have htext' : D.reparse (D.sent temp) / 2 ^ 53 ≤ 1 / 10 ^ 6 := by norm_num; linarith
  obtain ⟨htext₁, htext₂⟩ := abs_le.mp (htext.trans htext')
  refine ⟨by omega, numeric52_eq (by omega) (abs_lt.mpr ?_)⟩
  constructor <;> linarith

/-! ## The producer's messages -/

/-- A temperature that a sensor has measured, and what the connection to the database does while the
controller handles its message. -/
structure Measurement where
  sensorId : SensorId
  temp : ℚ
  link : Link

/-- What `run_telemetry_producer` publishes, as the controller's loop consumes it. -/
def telemetry (p : Measurement) : Delivery where
  topic := "telemetry/state"
  payload := some (.object [("sensor_id", .int64 p.sensorId.toInt64),
    ("temp", .double (D.reparse (D.sent p.temp)))])
  link := p.link

theorem write_telemetry (p : Measurement) :
    (D.telemetry p).write? = some (.state p.sensorId (D.reparse (D.sent p.temp))) := by
  simp [Delivery.write?, telemetry, readTelemetry, Json.asObject, Json.asInt64, Json.asDouble]

end Doubles

open Doubles (Measurement)

/-- The connections from which no exception leaves `upsert_sensor_state`. -/
def Link.LetsGoOn (link : Link) : Prop :=
  link ≠ .closed ∧ ∀ committed, link ≠ .lost .sqlError committed

theorem throws_state_iff {s : SensorId} {temp : ℚ} {link : Link} :
    Delivery.Write.throws (.state s temp) link false = false ↔ link.LetsGoOn := by
  rcases link with _ | _ | ⟨_ | _ | _, _ | _⟩ <;> simp [Delivery.Write.throws, Link.LetsGoOn]

/-- The temperature of a sensor that was committed last. -/
def lastCommitted (s : SensorId) (ps : List Measurement) : Option ℚ :=
  lastWrite (fun p : Measurement => if p.link.commits ∧ p.sensorId = s then some p.temp else none) ps

/-- What is written of a sensor last is what was committed last. -/
theorem lastWrite_telemetry (D : Doubles) (s : SensorId) (ps : List Measurement) :
    lastWrite (Delivery.stateWrite s) (ps.map D.telemetry) =
      (lastCommitted s ps).map fun temp => D.reparse (D.sent temp) := by
  rw [lastWrite, lastCommitted, lastWrite, List.filterMap_map, ← List.getLast?_map,
    List.map_filterMap]
  congr 2
  funext p
  have hlink : (D.telemetry p).link = p.link := rfl
  cases hcommits : p.link.commits <;> by_cases hs : p.sensorId = s <;>
    simp [Delivery.stateWrite, D.write_telemetry, hlink, hcommits, hs]

section Loop

variable {A : Type} [DoubleText]

/-- A producer's message of a sensor that is known is taken, unless its connection ends the loop, and
changes no configuration. -/
theorem handle_telemetry (D : Doubles) (I : InetType A) {db : Db A} {p : Measurement}
    (hlow : 30 ≤ p.temp) (hhigh : p.temp ≤ 80) (hknown : (db.configOf p.sensorId).isSome) :
    ((handle I db (D.telemetry p)).2 = false ↔ p.link.LetsGoOn) ∧
      (handle I db (D.telemetry p)).1.config = db.config := by
  obtain ⟨_, ht⟩ := D.numeric52_sent hlow hhigh
  have htaken : (db.upsertTemp p.sensorId (D.reparse (D.sent p.temp))).isSome :=
    Db.upsertTemp_isSome.mpr ⟨by rw [ht]; rfl, hknown⟩
  obtain ⟨⟨db', row⟩, hdb'⟩ := Option.isSome_iff_exists.mp htaken
  have hlink : (D.telemetry p).link = p.link := rfl
  rw [handle_of_write I db (D.write_telemetry p), hlink, Delivery.Write.apply, hdb']
  refine ⟨throws_state_iff, ?_⟩
  cases p.link.commits with
  | false => rfl
  | true => exact (Db.upsertTemp_eq hdb').2.2.1

/-- So is every sequence of them. -/
theorem takeAll_telemetry (D : Doubles) (I : InetType A) {db : Db A} {ps : List Measurement}
    (hrange : ∀ p ∈ ps, 30 ≤ p.temp ∧ p.temp ≤ 80)
    (hknown : ∀ p ∈ ps, (db.configOf p.sensorId).isSome) :
    ((takeAll (handle I) db (ps.map D.telemetry)).2 = true ↔ ∀ p ∈ ps, p.link.LetsGoOn) ∧
      (takeAll (handle I) db (ps.map D.telemetry)).1.config = db.config := by
  induction ps generalizing db with
  | nil => exact ⟨iff_of_true rfl (List.forall_mem_nil _), rfl⟩
  | cons p ps ih =>
    obtain ⟨hp, hps⟩ := List.forall_mem_cons.mp hrange
    obtain ⟨hk, hks⟩ := List.forall_mem_cons.mp hknown
    obtain ⟨hgoes, hconfig⟩ := handle_telemetry D I hp.1 hp.2 hk
    have hks' : ∀ p' ∈ ps, ((handle I db (D.telemetry p)).1.configOf p'.sensorId).isSome :=
      fun p' hp' => by
        rw [Db.configOf, hconfig, ← Db.configOf]
        exact hks p' hp'
    obtain ⟨hrest, hrest'⟩ := ih hps hks'
    rw [List.map_cons, goesOn_cons, hgoes, hrest, List.forall_mem_cons]
    refine ⟨Iff.rfl, ?_⟩
    cases hthrows : (handle I db (D.telemetry p)).2 with
    | false => rw [takeAll_cons_of_goesOn hthrows, hrest', hconfig]
    | true => rw [takeAll_cons_of_throws hthrows, hconfig]

/-- **Telemetry arrives as it was measured.**  However the messages of the producers are interleaved,
the loop takes them all unless the connection is closed, or lost with an `sql_error`, and changes no
configuration; and then a sensor shows the hundredths of its last temperature that was committed, which
are in range and away from it by half a hundredth and a millionth at most, or what it showed before
there was one.  While the connection is up every temperature is committed. -/
theorem telemetry_stored (D : Doubles) (I : InetType A) (db : Db A) (ps : List Measurement)
    (hrange : ∀ p ∈ ps, 30 ≤ p.temp ∧ p.temp ≤ 80)
    (hknown : ∀ p ∈ ps, (db.configOf p.sensorId).isSome) :
    ((consumeAll I db (ps.map D.telemetry)).2 = true ↔
        ∀ p ∈ ps, p.link ≠ .closed ∧ ∀ committed, p.link ≠ .lost .sqlError committed) ∧
      (consumeAll I db (ps.map D.telemetry)).1.config = db.config ∧
      ((consumeAll I db (ps.map D.telemetry)).2 = true →
        ∀ s, (∀ temp, lastCommitted s ps = some temp → ∃ t : Numeric52,
            (consumeAll I db (ps.map D.telemetry)).1.stateOf s = some ⟨s, some t⟩ ∧
            t.hundredths = stdRound (D.round (temp * 100)) ∧
            3000 ≤ t.hundredths ∧ t.hundredths ≤ 8000 ∧
            |(t.hundredths : ℚ) - 100 * temp| ≤ 1 / 2 + 1 / 10 ^ 6) ∧
          (lastCommitted s ps = none →
            (consumeAll I db (ps.map D.telemetry)).1.stateOf s = db.stateOf s)) := by
  rw [consumeAll_eq]
  obtain ⟨hiff, hconfig⟩ := takeAll_telemetry D I hrange hknown
  refine ⟨hiff, hconfig, fun hgoes s => ?_⟩
  obtain ⟨hlast, hnone⟩ := stateOf_takeAll hgoes s
  rw [lastWrite_telemetry] at hlast hnone
  refine ⟨fun temp htemp => ?_, fun h => hnone (by rw [h, Option.map_none])⟩
  -- the last temperature is one of the list
  obtain ⟨p, hp, hs⟩ := List.mem_filterMap.mp (List.mem_of_getLast? htemp)
  obtain ⟨-, rfl⟩ := Option.ite_none_right_eq_some.mp hs |>.imp_right Option.some.inj
  obtain ⟨hlow, hhigh⟩ := hrange p hp
  obtain ⟨_, ht⟩ := D.numeric52_sent hlow hhigh
  obtain ⟨t, ht', hstate⟩ := hlast _ (by rw [htemp, Option.map_some])
  obtain rfl : ⟨D.hundredths p.temp, _⟩ = t := Option.some.inj (ht.symm.trans ht')
  exact ⟨_, hstate, rfl, D.hundredths_bounds hlow hhigh⟩

end Loop

/-- Sensor 3 measures three times, the last time as the connection is lost. -/
def threeMeasured : List Measurement :=
  [⟨3, 45, .up⟩, ⟨3, binary64 (613 / 10), .up⟩, ⟨3, 70, .lost .brokenConnection false⟩]

open ShortestText in
/-- The second temperature stays. -/
theorem telemetry_stored_three : ∃ t : Numeric52,
    (consumeAll addrInet oneSensor (threeMeasured.map nearestDoubles.telemetry)).1.stateOf 3 =
      some ⟨3, some t⟩ ∧ t.hundredths = 6130 := by
  obtain ⟨hgoes, -, hstate⟩ := telemetry_stored nearestDoubles addrInet oneSensor threeMeasured
    (by decide +kernel) (by decide)
  obtain ⟨t, ht, hhundredths, -⟩ :=
    (hstate (hgoes.mpr (by decide)) 3).1 (binary64 (613 / 10)) (by decide +kernel)
  exact ⟨t, ht, hhundredths.trans (by decide +kernel)⟩

end ManagementSensors
