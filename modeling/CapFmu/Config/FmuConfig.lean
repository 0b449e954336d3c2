import CapFmu.Logging.Logger
import CapFmu.Numeric.Binary64
import CapFmu.Validation.Except

/-!
# Loading the configuration

The `fmu` block of the configuration file is read key by key. A value of the wrong type or out
of range leaves the default in place, except for the endpoint of the autopilot, where it ends the
program. Reading an integer also fails when it is no 32-bit one, whichever key it is of.

The file is taken as opened and parsed. A document has no NaN, so the non-finite double of a
number is an infinity, which is in no range. Warnings on the standard error are left out.
-/

namespace CapFmu

open Numeric Validation

/-- A parsed document. The members of an object are looked up by key. -/
inductive Json
  | null
  | int (value : Int64)
  | uint (value : UInt64)
  | real (value : Double)
  | string (value : String)
  | boolean (value : Bool)
  | array (elements : List Json)
  | object (members : List (String × Json))

/-- The members of an object. -/
abbrev JsonObject := List (String × Json)

namespace Json

/-- A number as a double, `none` for a value that is not numeric. -/
def asDouble : Json → Option Double
  | int value => some (.finite (binary64 value.toInt))
  | uint value => some (.finite (binary64 value.toNat))
  | real value => some value
  | _ => none

/-- The integer that a number is, within the range of 64 bits with or without sign. -/
def integral : Json → Option ℤ
  | int value => some value.toInt
  | uint value => some value.toNat
  | real (.finite x) => if x.den = 1 ∧ -2 ^ 63 ≤ x ∧ x < 2 ^ 64 then some x.num else none
  | _ => none

end Json

/-- The values of an `int`. -/
def FitsInt (z : ℤ) : Prop := -2 ^ 31 ≤ z ∧ z < 2 ^ 31

instance (z : ℤ) : Decidable (FitsInt z) := inferInstanceAs (Decidable (_ ∧ _))

/-- What the program relies on of the library that reads integers. -/
structure IntegerAccess where
  isIntegral : Json → Bool
  asInt : Json → Except String ℤ
  isIntegral_eq : ∀ value, isIntegral value = value.integral.isSome
  asInt_of_fits : ∀ value z, value.integral = some z → FitsInt z → asInt value = .ok z
  asInt_of_not_fits : ∀ value z, value.integral = some z → ¬FitsInt z →
    ∃ message, asInt value = .error message

/-- An exception, and the key that was being read. -/
structure ConfigError where
  key : String
  message : String
  deriving DecidableEq

/-- The integer settings that fall back to their defaults. -/
inductive Tunable
  | lowbatThreshold
  | lowBatteryLatchCount
  | altitudeBreachLatchCount
  | reconnectIntervalS
  | positionStreamIntervalMs
  | batteryStreamIntervalMs
  | smmPositionReportIntervalMs
  | smmConnectTimeoutS
  | smmTransferTimeoutS
  | mavConnectTimeoutS
  | mavSendTimeoutS
  deriving DecidableEq

namespace Tunable

/-- The key of a setting. -/
def key : Tunable → String
  | lowbatThreshold => "lowbat_threshold"
  | lowBatteryLatchCount => "low_battery_latch_count"
  | altitudeBreachLatchCount => "altitude_breach_latch_count"
  | reconnectIntervalS => "reconnect_interval_s"
  | positionStreamIntervalMs => "position_stream_interval_ms"
  | batteryStreamIntervalMs => "battery_stream_interval_ms"
  | smmPositionReportIntervalMs => "smm_position_report_interval_ms"
  | smmConnectTimeoutS => "smm_connect_timeout_s"
  | smmTransferTimeoutS => "smm_transfer_timeout_s"
  | mavConnectTimeoutS => "mav_connect_timeout_s"
  | mavSendTimeoutS => "mav_send_timeout_s"

/-- The default of a setting. -/
def default : Tunable → ℤ
  | lowbatThreshold => 20
  | lowBatteryLatchCount => 4
  | altitudeBreachLatchCount => 5
  | reconnectIntervalS => 10
  | positionStreamIntervalMs => 200
  | batteryStreamIntervalMs => 1000
  | smmPositionReportIntervalMs => 1000
  | smmConnectTimeoutS => 5
  | smmTransferTimeoutS => 10
  | mavConnectTimeoutS => 5
  | mavSendTimeoutS => 2

/-- The least value of a setting. -/
def lo : Tunable → ℤ
  | lowbatThreshold => 0
  | positionStreamIntervalMs | batteryStreamIntervalMs => 50
  | smmPositionReportIntervalMs => 100
  | _ => 1

/-- The greatest value of a setting. -/
def hi : Tunable → ℤ
  | lowbatThreshold | lowBatteryLatchCount | altitudeBreachLatchCount => 100
  | reconnectIntervalS => 3600
  | positionStreamIntervalMs | batteryStreamIntervalMs | smmPositionReportIntervalMs => 60000
  | smmConnectTimeoutS | mavConnectTimeoutS => 30
  | smmTransferTimeoutS => 60
  | mavSendTimeoutS => 10

/-- A value that a setting can take. -/
def InRange (k : Tunable) (z : ℤ) : Prop := k.lo ≤ z ∧ z ≤ k.hi

instance (k : Tunable) (z : ℤ) : Decidable (k.InRange z) := inferInstanceAs (Decidable (_ ∧ _))

/-- Every default passes its own check. -/
theorem inRange_default (k : Tunable) : k.InRange k.default := by
  cases k <;> decide

/-- No setting is the endpoint. -/
theorem key_ne_endpoint (k : Tunable) : k.key ≠ "mav_address" ∧ k.key ≠ "mav_port" := by
  cases k <;> decide

/-- The settings read before the endpoint of the autopilot, in order. -/
def beforeEndpoint : List Tunable :=
  [lowbatThreshold, lowBatteryLatchCount, altitudeBreachLatchCount, reconnectIntervalS,
    positionStreamIntervalMs, batteryStreamIntervalMs, smmPositionReportIntervalMs,
    smmConnectTimeoutS, smmTransferTimeoutS]

/-- The settings read after it. -/
def afterEndpoint : List Tunable := [mavConnectTimeoutS, mavSendTimeoutS]

end Tunable

/-- The configuration. -/
structure FmuConfig where
  altitudeCapM : UInt16 := 122
  altitudeFloorM : UInt16 := 10
  gotoAltitudeM : UInt16 := 50
  cameraFovDeg : Double := .finite 90
  tunable : Tunable → ℤ := Tunable.default
  mavAddress : String := "127.0.0.1"
  mavPort : ℤ := 5760
  logLevel : LogLevel := .info
  logDir : String := "/var/log/cap-fmu"

/-- Whether a character is white space. -/
def isspace (c : Char) : Bool := c.toNat == 32 || (9 ≤ c.toNat && c.toNat ≤ 13)

/-- Whether a string is empty or white space only. -/
def isBlank (s : String) : Bool := s.toList.all isspace

/-- A foot in metres, as a double. -/
def feetToMetres : ℚ := binary64 (3048 / 10000)

/-- Round to the nearest integer, away from zero at a midpoint. -/
def lround (x : ℚ) : ℤ := if 0 ≤ x then ⌊x + 1 / 2⌋ else ⌈x - 1 / 2⌉

/-- Store an altitude, unless it is not numeric or out of range. -/
def setAltitudeMetres (target : UInt16) (value : Json) (toMetres : ℚ) : UInt16 :=
  match value.asDouble with
  | some (.finite x) =>
    if binary64 (x * toMetres) < 0 ∨ 65535 < binary64 (x * toMetres) then target
    else UInt16.ofNat (lround (binary64 (x * toMetres))).toNat
  | _ => target

/-- Load an altitude in metres or feet. If both are present, feet win. -/
def loadAltitude (target : UInt16) (fmu : JsonObject) (keyM keyFt : String) : UInt16 :=
  match fmu.lookup keyFt with
  | some value => setAltitudeMetres target value feetToMetres
  | none =>
    match fmu.lookup keyM with
    | some value => setAltitudeMetres target value 1
    | none => target

/-- Store an integer, unless it is not integral or out of range. -/
def setRangedInt (lib : IntegerAccess) (target : ℤ) (key : String) (value : Json) (lo hi : ℤ) :
    Except ConfigError ℤ :=
  if lib.isIntegral value = false then .ok target
  else ((lib.asInt value).mapError fun message => { key := key, message := message }).bind fun v =>
    if v < lo ∨ hi < v then .ok target else .ok v

namespace FmuConfig

/-- Load the altitudes, the floor below the cap and the goto altitude between the two. -/
def loadAltitudes (fmu : JsonObject) (cfg : FmuConfig) : FmuConfig :=
  let cap := loadAltitude cfg.altitudeCapM fmu "altitude_cap_m" "altitude_cap_ft"
  let floor := loadAltitude cfg.altitudeFloorM fmu "altitude_floor_m" "altitude_floor_ft"
  let floor := if cap < floor then cap else floor
  let goto := loadAltitude cfg.gotoAltitudeM fmu "goto_altitude_m" "goto_altitude_ft"
  { cfg with
    altitudeCapM := cap
    altitudeFloorM := floor
    gotoAltitudeM := if cap < goto then cap else if goto < floor then floor else goto }

/-- Load the field of view. -/
def loadCameraFov (fmu : JsonObject) (cfg : FmuConfig) : FmuConfig :=
  match (fmu.lookup "camera_fov_deg").bind Json.asDouble with
  | some (.finite fov) => if 0 < fov ∧ fov < 180 then { cfg with cameraFovDeg := .finite fov } else cfg
  | _ => cfg

/-- Load an integer setting. -/
def loadTunable (lib : IntegerAccess) (fmu : JsonObject) (cfg : FmuConfig) (k : Tunable) :
    Except ConfigError FmuConfig :=
  match fmu.lookup k.key with
  | some value => (setRangedInt lib (cfg.tunable k) k.key value k.lo k.hi).bind fun v =>
      .ok { cfg with tunable := Function.update cfg.tunable k v }
  | none => .ok cfg

/-- Load the address of the autopilot. -/
def loadMavAddress (configFile : String) (fmu : JsonObject) (cfg : FmuConfig) :
    Except ConfigError FmuConfig :=
  match fmu.lookup "mav_address" with
  | some (.string s) =>
    if isBlank s then
      .error { key := "mav_address"
               message := "Config (" ++ configFile ++
                "): mav_address is empty or whitespace-only" }
    else .ok { cfg with mavAddress := s }
  | some _ =>
    .error { key := "mav_address"
             message := "Config (" ++ configFile ++ "): mav_address must be a string" }
  | none => .ok cfg

/-- Load the port of the autopilot. -/
def loadMavPort (lib : IntegerAccess) (configFile : String) (fmu : JsonObject) (cfg : FmuConfig) :
    Except ConfigError FmuConfig :=
  match fmu.lookup "mav_port" with
  | some value =>
    if lib.isIntegral value = false then
      .error { key := "mav_port"
               message := "Config (" ++ configFile ++ "): mav_port must be an integer" }
    else ((lib.asInt value).mapError fun message =>
        { key := "mav_port", message := message }).bind fun v =>
      if v < 1 ∨ 65535 < v then
        .error { key := "mav_port"
                 message := "Config (" ++ configFile ++ "): mav_port (" ++ toString v ++
                  ") out of range [1, 65535]" }
      else .ok { cfg with mavPort := v }
  | none => .ok cfg

/-- The level of a name. -/
def levelOfName : String → Option LogLevel
  | "error" => some .error
  | "warning" => some .warning
  | "info" => some .info
  | "debug" => some .debug
  | _ => none

/-- Load the log level. -/
def loadLogLevel (fmu : JsonObject) (cfg : FmuConfig) : FmuConfig :=
  match fmu.lookup "log_level" with
  | some (.string s) => { cfg with logLevel := (levelOfName s).getD cfg.logLevel }
  | _ => cfg

/-- Load the log directory. -/
def loadLogDir (fmu : JsonObject) (cfg : FmuConfig) : FmuConfig :=
  match fmu.lookup "log_dir" with
  | some (.string s) => if s.isEmpty then cfg else { cfg with logDir := s }
  | _ => cfg

end FmuConfig

/-- Load the configuration from a document whose root is an object. -/
def loadFmuConfig (lib : IntegerAccess) (configFile : String) (root : JsonObject) :
    Except ConfigError FmuConfig :=
  match root.lookup "fmu" with
  | some (.object fmu) =>
    (readAll (FmuConfig.loadTunable lib fmu)
        (FmuConfig.loadCameraFov fmu (FmuConfig.loadAltitudes fmu {}))
        Tunable.beforeEndpoint).bind fun cfg =>
      (FmuConfig.loadMavAddress configFile fmu cfg).bind fun cfg =>
        (FmuConfig.loadMavPort lib configFile fmu cfg).bind fun cfg =>
          (readAll (FmuConfig.loadTunable lib fmu) cfg Tunable.afterEndpoint).bind fun cfg =>
            .ok (FmuConfig.loadLogDir fmu (FmuConfig.loadLogLevel fmu cfg))
  | _ => .ok {}

end CapFmu
