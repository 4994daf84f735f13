import Investor.Universe.BookStrategy
import Investor.Lib.Gaps

/-!
# Buying that is split over days

The footprint of a large buyer in the daily bars of a symbol (`accumulation.py`): closes that
cluster, a range that stays a box, no slide, no jump, and a volume that persists. Prices are exact
numbers here.
-/

namespace Investor.Universe

open Lib

def MIN_SESSIONS : ℕ := 4
def MAX_SESSIONS : ℕ := 8
def MAX_CLOSE_SPAN_PCT : ℚ := 25 / 1000
def MAX_RANGE_PCT : ℚ := 5 / 100
def MIN_NET_DRIFT_PCT : ℚ := -(1 / 100)
def MAX_SINGLE_DAY_PCT : ℚ := 25 / 1000
def VOLUME_FLOOR_MULT : ℚ := 85 / 100
def MIN_VOLUME_DAYS : ℕ := 3
def SPIKE_VOL_MULT : ℚ := 4
def MIN_BUY_VOLUME_SHARE : ℚ := 52 / 100

/-- `SessionBar`, and the `SessionPrint` made of it. -/
structure SessionBar where
  sessionDate : String
  close : ℚ
  opening : Option ℚ
  high : Option ℚ
  low : Option ℚ
  volume : Option ℚ
  deriving DecidableEq

/-- `AccumulationHit`, less its figures. -/
structure AccumulationHit where
  detected : Bool
  reason : String
  deriving DecidableEq

/-- `_coerce_print`: a bar needs a price and a date. -/
def coercePrint (raw : SessionBar) : Option SessionBar :=
  if raw.close ≤ 0 ∨ raw.sessionDate = "" then none else some raw

/-- `_median`. -/
def median (values : List ℚ) : ℚ :=
  let ordered := sortedBy id values
  let mid := ordered.length / 2
  if ordered.length % 2 = 1 then ordered.getD mid 0
  else (ordered.getD (mid - 1) 0 + ordered.getD mid 0) / 2

/-- `max(values)`, of a list that is not empty. -/
def maxOf : List ℚ → ℚ
  | [] => 0
  | x :: xs => xs.foldl max x

/-- `min(values)`, of a list that is not empty. -/
def minOf : List ℚ → ℚ
  | [] => 0
  | x :: xs => xs.foldl min x

namespace SessionBar

/-- `_high`. -/
def highOf (p : SessionBar) : ℚ := p.high.getD (max p.close (p.opening.getD p.close))

/-- `_low`. -/
def lowOf (p : SessionBar) : ℚ := p.low.getD (min p.close (p.opening.getD p.close))

/-- `_day_move_pct`. -/
def dayMovePct (p : SessionBar) : Option ℚ :=
  match p.opening.filter (0 < ·), p.high, p.low.filter (0 < ·) with
  | some opening, _, _ => some (|p.close - opening| / opening)
  | none, some high, some low => if p.close = 0 then none else some ((high - low) / p.close)
  | _, _, _ => none

def rangePct (p : SessionBar) : ℚ := if p.close = 0 then 0 else (p.highOf - p.lowOf) / p.close

end SessionBar

structure VolumeScan where
  up : ℚ
  down : ℚ
  prevClose : Option ℚ

/-- The turn of one day in `_buy_volume_share`. -/
def scanVolume (scan : VolumeScan) (p : SessionBar) : VolumeScan :=
  let vol := p.volume.getD 0
  if vol ≤ 0 then { scan with prevClose := some p.close }
  else
    match p.opening.or scan.prevClose with
    | none => { scan with prevClose := some p.close }
    | some baseline =>
      if baseline ≤ p.close then { scan with up := scan.up + vol, prevClose := some p.close }
      else { scan with down := scan.down + vol, prevClose := some p.close }

/-- `_buy_volume_share`. -/
def buyVolumeShare (window : List SessionBar) : Option ℚ :=
  let scan := window.foldl scanVolume { up := 0, down := 0, prevClose := none }
  if scan.up + scan.down ≤ 0 then none else some (scan.up / (scan.up + scan.down))

def spikeDay (window : List SessionBar) : Option SessionBar :=
  let peak := maxOf (window.map fun p => p.volume.getD 0)
  window.find? fun p => p.volume.getD 0 = peak

/-- `_volume_persistence`: why the volume does not persist, if it does not. -/
def volumePersistence (window : List SessionBar) (avgVolume : Option ℚ) : Option String :=
  let volumes := (window.filterMap (·.volume)).filter (0 < ·)
  let medianVol := median volumes
  if volumes = [] ∨ medianVol ≤ 0 then some "no_volume"
  else
    let typical := median ((window.filter (·.close ≠ 0)).map (·.rangePct))
    let dayRange := ((spikeDay window).map (·.rangePct)).getD 0
    if SPIKE_VOL_MULT * medianVol ≤ maxOf volumes ∧ 0 < typical ∧ 16 / 10 * typical ≤ dayRange then
      some "news_spike"
    else
      let floor := ((avgVolume.filter (0 < ·)).map (· * VOLUME_FLOOR_MULT)).getD
        (medianVol * (85 / 100))
      let volDays := window.countP fun p => p.volume.any (floor ≤ ·)
      if volDays < min MIN_VOLUME_DAYS (window.length - 1) then some "volume_faded"
      else if (buyVolumeShare window).any (· < MIN_BUY_VOLUME_SHARE) then some "distribution"
      else none

/-- `detect_stealth_accumulation`. -/
def detectStealthAccumulation (bars : List SessionBar) (avgVolume : Option ℚ) : AccumulationHit :=
  let prints := bars.filterMap coercePrint
  if prints.length < MIN_SESSIONS then { detected := false, reason := "insufficient_history" }
  else
    let window := prints.drop (prints.length - MAX_SESSIONS)
    let closes := window.map (·.close)
    let mid := median closes
    let highs := window.map (·.highOf)
    let lows := window.map (·.lowOf)
    let first := closes.headD 0
    if mid ≤ 0 then { detected := false, reason := "bad_price" }
    else if MAX_CLOSE_SPAN_PCT < (maxOf closes - minOf closes) / mid then
      { detected := false, reason := "close_span" }
    else if MAX_RANGE_PCT < (maxOf highs - minOf lows) / mid then
      { detected := false, reason := "wide_range" }
    else if (closes.getLastD 0 - first) / first < MIN_NET_DRIFT_PCT then
      { detected := false, reason := "sliding" }
    else if window.any fun p => p.dayMovePct.any (MAX_SINGLE_DAY_PCT < ·) then
      { detected := false, reason := "single_day_jump" }
    else if 3 ≤ lows.length ∧ lows.getLastD 0 ≤ minOf lows.dropLast * (997 / 1000) then
      { detected := false, reason := "range_break" }
    else
      match volumePersistence window avgVolume with
      | some reason => { detected := false, reason }
      | none => { detected := true, reason := "stealth_split_buy" }

end Investor.Universe
