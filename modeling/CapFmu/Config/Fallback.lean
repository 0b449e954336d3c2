import CapFmu.Config.FmuConfig

/-!
# Falling back to the defaults

Whatever the document, a configuration that is returned has every value within its bounds and
the default for every value that was bad. What is not always so is that it is returned: an
integer that is no 32-bit one ends the loading under any of the integer keys, not only under the
port of the autopilot.
-/

namespace CapFmu

open Numeric Validation

/-- The `fmu` block of a document, which may be missing. -/
def fmuBlock (root : JsonObject) : JsonObject :=
  match root.lookup "fmu" with
  | some (.object fmu) => fmu
  | _ => []

/-- A number that is an altitude in the given unit. -/
def Json.IsAltitude (value : Json) (toMetres : ℚ) : Prop :=
  ∃ x, value.asDouble = some (.finite x) ∧ 0 ≤ binary64 (x * toMetres) ∧
    binary64 (x * toMetres) ≤ 65535

/-- An altitude is given in feet, or in metres and not in feet. -/
def GivesAltitude (fmu : JsonObject) (keyM keyFt : String) : Prop :=
  (∃ value, fmu.lookup keyFt = some value ∧ value.IsAltitude feetToMetres) ∨
    fmu.lookup keyFt = none ∧ ∃ value, fmu.lookup keyM = some value ∧ value.IsAltitude 1

/-- A value is given that the setting can take. -/
def GivesTunable (fmu : JsonObject) (k : Tunable) : Prop :=
  ∃ value z, fmu.lookup k.key = some value ∧ value.integral = some z ∧ k.InRange z

/-- A field of view is given. -/
def GivesFov (fmu : JsonObject) : Prop :=
  ∃ value x, fmu.lookup "camera_fov_deg" = some value ∧ value.asDouble = some (.finite x) ∧
    0 < x ∧ x < 180

/-- A log level is given. -/
def GivesLogLevel (fmu : JsonObject) : Prop :=
  ∃ s, fmu.lookup "log_level" = some (.string s) ∧ s ∈ ["error", "warning", "info", "debug"]

/-- A log directory is given. -/
def GivesLogDir (fmu : JsonObject) : Prop :=
  ∃ s, fmu.lookup "log_dir" = some (.string s) ∧ s ≠ ""

/-- The address is present and not a string with something in it. -/
def BadAddress (fmu : JsonObject) : Prop :=
  ∃ value, fmu.lookup "mav_address" = some value ∧ ∀ s, value = .string s → isBlank s = true

/-- The port is present and not an integer in its range. -/
def BadPort (fmu : JsonObject) : Prop :=
  ∃ value, fmu.lookup "mav_port" = some value ∧
    ∀ z, value.integral = some z → ¬(1 ≤ z ∧ z ≤ 65535)

/-- Every field is within its bounds. -/
structure FmuConfig.InBounds (cfg : FmuConfig) : Prop where
  floor_le_goto : cfg.altitudeFloorM ≤ cfg.gotoAltitudeM
  goto_le_cap : cfg.gotoAltitudeM ≤ cfg.altitudeCapM
  fov : ∃ x, cfg.cameraFovDeg = .finite x ∧ 0 < x ∧ x < 180
  tunable : ∀ k : Tunable, k.InRange (cfg.tunable k)
  port : 1 ≤ cfg.mavPort ∧ cfg.mavPort ≤ 65535

/-- A setting that is not given has its default, altitudes within the bounds of each other. -/
structure FmuConfig.FallsBack (fmu : JsonObject) (cfg : FmuConfig) : Prop where
  cap : ¬GivesAltitude fmu "altitude_cap_m" "altitude_cap_ft" → cfg.altitudeCapM = 122
  floor : ¬GivesAltitude fmu "altitude_floor_m" "altitude_floor_ft" →
    cfg.altitudeFloorM.toNat = min 10 cfg.altitudeCapM.toNat
  goto : ¬GivesAltitude fmu "goto_altitude_m" "goto_altitude_ft" →
    cfg.gotoAltitudeM.toNat = max cfg.altitudeFloorM.toNat (min 50 cfg.altitudeCapM.toNat)
  fov : ¬GivesFov fmu → cfg.cameraFovDeg = .finite 90
  tunable : ∀ k, ¬GivesTunable fmu k → cfg.tunable k = k.default
  logLevel : ¬GivesLogLevel fmu → cfg.logLevel = .info
  logDir : ¬GivesLogDir fmu → cfg.logDir = "/var/log/cap-fmu"

/-- What loading promises: it fails for the endpoint of the autopilot only, other bad values fall
back to their defaults, and every field is within its bounds. -/
structure LoadsSafely (lib : IntegerAccess) (configFile : String) (root : JsonObject) : Prop where
  throws : ∀ e, loadFmuConfig lib configFile root = .error e →
    e.key = "mav_address" ∧ BadAddress (fmuBlock root) ∨
      e.key = "mav_port" ∧ BadPort (fmuBlock root)
  fallsBack : ∀ cfg, loadFmuConfig lib configFile root = .ok cfg → cfg.FallsBack (fmuBlock root)
  inBounds : ∀ cfg, loadFmuConfig lib configFile root = .ok cfg → cfg.InBounds

/-- An integer is given that is no 32-bit one. -/
def Oversized (fmu : JsonObject) (k : Tunable) : Prop :=
  ∃ value z, fmu.lookup k.key = some value ∧ value.integral = some z ∧ ¬FitsInt z

/-- No integer that is read is too large, where nothing is read after a bad endpoint. -/
def IntegersFit (fmu : JsonObject) : Prop :=
  (∀ k ∈ Tunable.beforeEndpoint, ¬Oversized fmu k) ∧
    (BadAddress fmu ∨ BadPort fmu ∨ ∀ k ∈ Tunable.afterEndpoint, ¬Oversized fmu k)

section Ranged

variable {lib : IntegerAccess} {target lo hi v z : ℤ} {key : String} {value : Json}
  {e : ConfigError}

/-- An integer of 32 bits is stored if it is in range. -/
theorem setRangedInt_of_fits (hz : value.integral = some z) (hfits : FitsInt z) :
    setRangedInt lib target key value lo hi = .ok (if z < lo ∨ hi < z then target else z) := by
  have hintegral : lib.isIntegral value = true := by rw [lib.isIntegral_eq, hz, Option.isSome_some]
  simp only [setRangedInt, hintegral, lib.asInt_of_fits value z hz hfits, Bool.true_eq_false,
    if_false, Except.mapError, Except.bind]
  split <;> rfl

/-- A larger one is not. -/
theorem setRangedInt_of_not_fits (hz : value.integral = some z) (hfits : ¬FitsInt z) :
    ∃ message, setRangedInt lib target key value lo hi =
      .error { key := key, message := message } := by
  have hintegral : lib.isIntegral value = true := by rw [lib.isIntegral_eq, hz, Option.isSome_some]
  obtain ⟨message, hmessage⟩ := lib.asInt_of_not_fits value z hz hfits
  refine ⟨message, ?_⟩
  simp [setRangedInt, hintegral, hmessage, Except.mapError, Except.bind]

/-- What is no integer leaves the default. -/
theorem setRangedInt_of_not_integral (hz : value.integral = none) :
    setRangedInt lib target key value lo hi = .ok target := by
  have hintegral : lib.isIntegral value = false := by rw [lib.isIntegral_eq, hz, Option.isSome_none]
  rw [setRangedInt, if_pos hintegral]

/-- What is stored is the default, or an integer in range. -/
theorem eq_or_of_setRangedInt (h : setRangedInt lib target key value lo hi = .ok v) :
    v = target ∨ value.integral = some v ∧ lo ≤ v ∧ v ≤ hi := by
  cases hz : value.integral with
  | none =>
    rw [setRangedInt_of_not_integral hz] at h
    exact .inl (Except.ok.inj h).symm
  | some z =>
    by_cases hfits : FitsInt z
    · rw [setRangedInt_of_fits hz hfits, Except.ok.injEq] at h
      split at h
      · exact .inl h.symm
      · next hrange =>
        subst h
        rw [not_or, not_lt, not_lt] at hrange
        exact .inr ⟨rfl, hrange⟩
    · obtain ⟨message, hmessage⟩ := setRangedInt_of_not_fits hz hfits
      exact absurd (hmessage.symm.trans h) (by simp)

end Ranged

section Altitudes

variable {fmu : JsonObject} {cfg : FmuConfig} {target : UInt16} {value : Json} {toMetres : ℚ}
  {keyM keyFt : String}

/-- What is no altitude leaves the default. -/
theorem setAltitudeMetres_of_not (h : ¬value.IsAltitude toMetres) :
    setAltitudeMetres target value toMetres = target := by
  unfold setAltitudeMetres
  split
  · next x hx =>
    apply if_pos
    by_contra hrange
    rw [not_or, not_lt, not_lt] at hrange
    exact h ⟨x, hx, hrange.1, hrange.2⟩
  · rfl

/-- A key that gives no altitude leaves the default. -/
theorem loadAltitude_of_not_given (h : ¬GivesAltitude fmu keyM keyFt) :
    loadAltitude target fmu keyM keyFt = target := by
  unfold loadAltitude
  split
  · next value hvalue =>
    exact setAltitudeMetres_of_not fun haltitude => h (.inl ⟨value, hvalue, haltitude⟩)
  · next hfeet =>
    split
    · next value hvalue =>
      exact setAltitudeMetres_of_not fun haltitude => h (.inr ⟨hfeet, value, hvalue, haltitude⟩)
    · rfl

/-- The floor is clamped to the cap. -/
theorem toNat_clampFloor (floor cap : UInt16) :
    (if cap < floor then cap else floor).toNat = min floor.toNat cap.toNat := by
  split
  · next hlt =>
    rw [UInt16.lt_iff_toNat_lt] at hlt
    omega
  · next hle =>
    rw [UInt16.lt_iff_toNat_lt] at hle
    omega

/-- The goto altitude is clamped between the floor and the cap. -/
theorem toNat_clampGoto {floor cap : UInt16} (goto : UInt16) (h : floor.toNat ≤ cap.toNat) :
    (if cap < goto then cap else if goto < floor then floor else goto).toNat =
      max floor.toNat (min goto.toNat cap.toNat) := by
  simp only [UInt16.lt_iff_toNat_lt]
  split
  · omega
  · split <;> omega

end Altitudes

/-- A configuration that is as promised, which every part of the loading keeps. -/
structure FmuConfig.Settled (fmu : JsonObject) (cfg : FmuConfig) : Prop where
  fallsBack : cfg.FallsBack fmu
  inBounds : cfg.InBounds

namespace FmuConfig.Settled

variable {lib : IntegerAccess} {configFile : String} {fmu : JsonObject} {cfg next : FmuConfig}

/-- The altitudes, over the defaults of everything else. -/
theorem loadAltitudes (fmu : JsonObject) : Settled fmu (FmuConfig.loadAltitudes fmu {}) := by
  have hfloor : (FmuConfig.loadAltitudes fmu {}).altitudeFloorM.toNat =
      min (loadAltitude 10 fmu "altitude_floor_m" "altitude_floor_ft").toNat
        (FmuConfig.loadAltitudes fmu {}).altitudeCapM.toNat :=
    toNat_clampFloor _ _
  have hfloor_le : (FmuConfig.loadAltitudes fmu {}).altitudeFloorM.toNat ≤
      (FmuConfig.loadAltitudes fmu {}).altitudeCapM.toNat := by omega
  have hgoto : (FmuConfig.loadAltitudes fmu {}).gotoAltitudeM.toNat =
      max (FmuConfig.loadAltitudes fmu {}).altitudeFloorM.toNat
        (min (loadAltitude 50 fmu "goto_altitude_m" "goto_altitude_ft").toNat
          (FmuConfig.loadAltitudes fmu {}).altitudeCapM.toNat) :=
    toNat_clampGoto _ hfloor_le
  constructor
  · constructor
    · intro h
      exact loadAltitude_of_not_given h
    · intro h
      rw [hfloor, loadAltitude_of_not_given h]
      rfl
    · intro h
      rw [hgoto, loadAltitude_of_not_given h]
      rfl
    · intro _
      rfl
    · intro k _
      rfl
    · intro _
      rfl
    · intro _
      rfl
  · constructor
    · rw [UInt16.le_iff_toNat_le]
      omega
    · rw [UInt16.le_iff_toNat_le]
      omega
    · exact ⟨90, rfl, by norm_num, by norm_num⟩
    · exact Tunable.inRange_default
    · exact (by decide : (1 : ℤ) ≤ 5760 ∧ (5760 : ℤ) ≤ 65535)

/-- The field of view. -/
theorem loadCameraFov (h : Settled fmu cfg) : Settled fmu (FmuConfig.loadCameraFov fmu cfg) := by
  unfold FmuConfig.loadCameraFov
  split
  · next x hx =>
    split
    · next hrange =>
      obtain ⟨value, hvalue, hx⟩ := Option.bind_eq_some_iff.mp hx
      exact {
        fallsBack := { h.fallsBack with
          fov := fun hnone => absurd ⟨value, x, hvalue, hx, hrange⟩ hnone }
        inBounds := { h.inBounds with fov := ⟨x, rfl, hrange⟩ } }
    · exact h
  · exact h

/-- Storing what a setting can take, or leaving it. -/
theorem update_tunable {k : Tunable} {v : ℤ} (h : Settled fmu cfg)
    (hv : v = cfg.tunable k ∨ GivesTunable fmu k ∧ k.InRange v) :
    Settled fmu { cfg with tunable := Function.update cfg.tunable k v } where
  fallsBack := { h.fallsBack with
    tunable := by
      intro other hnone
      dsimp only
      by_cases hother : other = k
      · subst hother
        rw [Function.update_self, hv.resolve_right fun hgiven => hnone hgiven.1]
        exact h.fallsBack.tunable other hnone
      · rw [Function.update_of_ne hother]
        exact h.fallsBack.tunable other hnone }
  inBounds := { h.inBounds with
    tunable := by
      intro other
      dsimp only
      by_cases hother : other = k
      · subst hother
        rw [Function.update_self]
        cases hv with
        | inl hkept => exact hkept ▸ h.inBounds.tunable other
        | inr hgiven => exact hgiven.2
      · rw [Function.update_of_ne hother]
        exact h.inBounds.tunable other }

/-- An integer setting. -/
theorem loadTunable {k : Tunable} (h : Settled fmu cfg)
    (hload : FmuConfig.loadTunable lib fmu cfg k = .ok next) : Settled fmu next := by
  unfold FmuConfig.loadTunable at hload
  split at hload
  · next value hvalue =>
    obtain ⟨v, hv, hnext⟩ := bind_eq_ok.mp hload
    obtain rfl := Except.ok.inj hnext
    apply h.update_tunable
    apply (eq_or_of_setRangedInt hv).imp_right
    rintro ⟨hz, hrange⟩
    exact ⟨⟨value, v, hvalue, hz, hrange⟩, hrange⟩
  · exact Except.ok.inj hload ▸ h

/-- The address of the autopilot. -/
theorem loadMavAddress (h : Settled fmu cfg)
    (hload : FmuConfig.loadMavAddress configFile fmu cfg = .ok next) : Settled fmu next := by
  unfold FmuConfig.loadMavAddress at hload
  split at hload
  · split at hload
    · exact absurd hload (by simp)
    · obtain rfl := Except.ok.inj hload
      exact { fallsBack := { h.fallsBack with }, inBounds := { h.inBounds with } }
  · exact absurd hload (by simp)
  · exact Except.ok.inj hload ▸ h

/-- The port of the autopilot. -/
theorem loadMavPort (h : Settled fmu cfg)
    (hload : FmuConfig.loadMavPort lib configFile fmu cfg = .ok next) : Settled fmu next := by
  unfold FmuConfig.loadMavPort at hload
  split at hload
  · split at hload
    · exact absurd hload (by simp)
    · obtain ⟨v, -, hload⟩ := bind_eq_ok.mp hload
      split at hload
      · exact absurd hload (by simp)
      · next hrange =>
        obtain rfl := Except.ok.inj hload
        rw [not_or, not_lt, not_lt] at hrange
        exact {
          fallsBack := { h.fallsBack with }
          inBounds := { h.inBounds with port := hrange } }
  · exact Except.ok.inj hload ▸ h

/-- A name of no level. -/
theorem levelOfName_eq_none {s : String} (h : s ∉ ["error", "warning", "info", "debug"]) :
    levelOfName s = none := by
  simp only [List.mem_cons, List.not_mem_nil, or_false, not_or] at h
  simp [levelOfName, h]

/-- The log level. -/
theorem loadLogLevel (h : Settled fmu cfg) : Settled fmu (FmuConfig.loadLogLevel fmu cfg) := by
  unfold FmuConfig.loadLogLevel
  split
  · next s hs =>
    exact {
      fallsBack := { h.fallsBack with
        logLevel := by
          intro hnone
          have hname : s ∉ ["error", "warning", "info", "debug"] := fun hname => hnone ⟨s, hs, hname⟩
          rw [levelOfName_eq_none hname]
          exact h.fallsBack.logLevel hnone }
      inBounds := { h.inBounds with } }
  · exact h

/-- The log directory. -/
theorem loadLogDir (h : Settled fmu cfg) : Settled fmu (FmuConfig.loadLogDir fmu cfg) := by
  unfold FmuConfig.loadLogDir
  split
  · next s hs =>
    split
    · exact h
    · next hempty =>
      have hne : s ≠ "" := by simpa using hempty
      exact {
        fallsBack := { h.fallsBack with
          logDir := fun hnone => absurd ⟨s, hs, hne⟩ hnone }
        inBounds := { h.inBounds with } }
  · exact h

/-- Every configuration that is returned. -/
theorem of_loadFmuConfig {root : JsonObject}
    (hload : loadFmuConfig lib configFile root = .ok cfg) : Settled (fmuBlock root) cfg := by
  unfold loadFmuConfig at hload
  split at hload
  · next fmu hfmu =>
    have hblock : fmuBlock root = fmu := by simp only [fmuBlock, hfmu]
    rw [hblock]
    obtain ⟨early, hearly, hload⟩ := bind_eq_ok.mp hload
    obtain ⟨addressed, haddressed, hload⟩ := bind_eq_ok.mp hload
    obtain ⟨connected, hconnected, hload⟩ := bind_eq_ok.mp hload
    obtain ⟨late, hlate, hload⟩ := bind_eq_ok.mp hload
    obtain rfl := Except.ok.inj hload
    apply loadLogDir
    apply loadLogLevel
    refine readAll_keeps (Settled fmu) (fun _ _ _ h hread => h.loadTunable hread) ?_ hlate
    refine loadMavPort (loadMavAddress ?_ haddressed) hconnected
    exact readAll_keeps (Settled fmu) (fun _ _ _ h hread => h.loadTunable hread)
      (loadCameraFov (loadAltitudes fmu)) hearly
  · next hmissing =>
    obtain rfl := Except.ok.inj hload
    unfold fmuBlock
    split
    · next fmu hfmu => exact absurd hfmu (hmissing fmu)
    · exact loadAltitudes []

end FmuConfig.Settled

section Throws

variable {lib : IntegerAccess} {configFile : String} {fmu : JsonObject} {cfg : FmuConfig}
  {e : ConfigError}

/-- An integer setting fails under its own key, for an integer that is too large. -/
theorem oversized_of_loadTunable {k : Tunable}
    (hload : FmuConfig.loadTunable lib fmu cfg k = .error e) : Oversized fmu k ∧ e.key = k.key := by
  unfold FmuConfig.loadTunable at hload
  split at hload
  · next value hvalue =>
    have hset := (bind_eq_error.mp hload).resolve_right (by simp)
    cases hz : value.integral with
    | none =>
      rw [setRangedInt_of_not_integral hz] at hset
      exact absurd hset (by simp)
    | some z =>
      by_cases hfits : FitsInt z
      · rw [setRangedInt_of_fits hz hfits] at hset
        exact absurd hset (by simp)
      · obtain ⟨message, hmessage⟩ := setRangedInt_of_not_fits hz hfits
        rw [hmessage, Except.error.injEq] at hset
        exact ⟨⟨value, z, hvalue, hz, hfits⟩, hset ▸ rfl⟩
  · exact absurd hload (by simp)

/-- An integer setting fails for every integer that is too large. -/
theorem loadTunable_of_oversized {k : Tunable} (h : Oversized fmu k) (cfg : FmuConfig) :
    ∃ e, FmuConfig.loadTunable lib fmu cfg k = .error e := by
  obtain ⟨value, z, hvalue, hz, hfits⟩ := h
  obtain ⟨message, hmessage⟩ := setRangedInt_of_not_fits hz hfits
  refine ⟨{ key := k.key, message := message }, ?_⟩
  simp only [FmuConfig.loadTunable, hvalue]
  exact bind_eq_error.mpr (.inl hmessage)

/-- Integer settings fail only for an integer that is too large, under a key that is not the
endpoint's. -/
theorem oversized_of_readAll {ks : List Tunable}
    (hread : readAll (FmuConfig.loadTunable lib fmu) cfg ks = .error e) :
    (∃ k ∈ ks, Oversized fmu k) ∧ e.key ≠ "mav_address" ∧ e.key ≠ "mav_port" := by
  obtain ⟨k, hk, before, hload⟩ := exists_of_readAll_eq_error hread
  obtain ⟨hoversized, hkey⟩ := oversized_of_loadTunable hload
  exact ⟨⟨k, hk, hoversized⟩, hkey ▸ k.key_ne_endpoint⟩

/-- The address fails only when it is bad. -/
theorem badAddress_of_error (hload : FmuConfig.loadMavAddress configFile fmu cfg = .error e) :
    e.key = "mav_address" ∧ BadAddress fmu := by
  unfold FmuConfig.loadMavAddress at hload
  split at hload
  · next s hs =>
    split at hload
    · next hblank =>
      refine ⟨Except.error.inj hload ▸ rfl, .string s, hs, ?_⟩
      intro other hother
      exact Json.string.inj hother ▸ hblank
    · exact absurd hload (by simp)
  · next value hstring hvalue =>
    refine ⟨Except.error.inj hload ▸ rfl, value, hvalue, ?_⟩
    intro s hs
    exact (hstring s hs).elim
  · exact absurd hload (by simp)

/-- A bad address fails. -/
theorem not_badAddress_of_ok {next : FmuConfig}
    (hload : FmuConfig.loadMavAddress configFile fmu cfg = .ok next) : ¬BadAddress fmu := by
  rintro ⟨value, hvalue, hbad⟩
  unfold FmuConfig.loadMavAddress at hload
  rw [hvalue] at hload
  cases value with
  | string s => simp [hbad s rfl] at hload
  | _ => simp at hload

/-- The port fails only when it is bad. -/
theorem badPort_of_error (hload : FmuConfig.loadMavPort lib configFile fmu cfg = .error e) :
    e.key = "mav_port" ∧ BadPort fmu := by
  unfold FmuConfig.loadMavPort at hload
  split at hload
  · next value hvalue =>
    rw [lib.isIntegral_eq] at hload
    cases hz : value.integral with
    | none =>
      rw [hz, Option.isSome_none, if_pos rfl] at hload
      refine ⟨Except.error.inj hload ▸ rfl, value, hvalue, ?_⟩
      intro z hother
      exact absurd (hz.symm.trans hother) (by simp)
    | some z =>
      by_cases hfits : FitsInt z
      · simp only [hz, Option.isSome_some, lib.asInt_of_fits value z hz hfits, Bool.true_eq_false,
          if_false, Except.mapError, Except.bind] at hload
        split at hload
        · next hrange =>
          refine ⟨Except.error.inj hload ▸ rfl, value, hvalue, ?_⟩
          intro other hother hport
          obtain rfl := Option.some.inj (hz.symm.trans hother)
          omega
        · exact absurd hload (by simp)
      · obtain ⟨message, hmessage⟩ := lib.asInt_of_not_fits value z hz hfits
        simp only [hz, Option.isSome_some, hmessage, Bool.true_eq_false, if_false, Except.mapError,
          Except.bind] at hload
        refine ⟨Except.error.inj hload ▸ rfl, value, hvalue, ?_⟩
        intro other hother hport
        obtain rfl := Option.some.inj (hz.symm.trans hother)
        exact hfits ⟨by omega, by omega⟩
  · exact absurd hload (by simp)

/-- A bad port fails. -/
theorem not_badPort_of_ok {next : FmuConfig}
    (hload : FmuConfig.loadMavPort lib configFile fmu cfg = .ok next) : ¬BadPort fmu := by
  rintro ⟨value, hvalue, hbad⟩
  unfold FmuConfig.loadMavPort at hload
  rw [hvalue] at hload
  simp only [lib.isIntegral_eq] at hload
  cases hz : value.integral with
  | none => simp [hz] at hload
  | some z =>
    by_cases hfits : FitsInt z
    · have hrange : z < 1 ∨ 65535 < z := by
        have := hbad z hz
        omega
      simp [hz, lib.asInt_of_fits value z hz hfits, Except.mapError, Except.bind, hrange] at hload
    · obtain ⟨message, hmessage⟩ := lib.asInt_of_not_fits value z hz hfits
      simp [hz, hmessage, Except.mapError, Except.bind] at hload

end Throws

section Loading

variable (lib : IntegerAccess) (configFile : String) (root : JsonObject)

/-- Where the integers fit, loading fails for the endpoint only. -/
theorem throws_of_integersFit (hfit : IntegersFit (fmuBlock root)) (e : ConfigError)
    (hload : loadFmuConfig lib configFile root = .error e) :
    e.key = "mav_address" ∧ BadAddress (fmuBlock root) ∨
      e.key = "mav_port" ∧ BadPort (fmuBlock root) := by
  unfold loadFmuConfig at hload
  unfold fmuBlock at *
  split at hload
  · next fmu hfmu =>
    simp only [hfmu] at hfit ⊢
    cases bind_eq_error.mp hload with
    | inl hearly =>
      obtain ⟨⟨k, hk, hoversized⟩, -⟩ := oversized_of_readAll hearly
      exact absurd hoversized (hfit.1 k hk)
    | inr hrest =>
      obtain ⟨early, -, hload⟩ := hrest
      cases bind_eq_error.mp hload with
      | inl haddress => exact .inl (badAddress_of_error haddress)
      | inr hrest =>
        obtain ⟨addressed, haddress, hload⟩ := hrest
        cases bind_eq_error.mp hload with
        | inl hport => exact .inr (badPort_of_error hport)
        | inr hrest =>
          obtain ⟨connected, hport, hload⟩ := hrest
          -- the endpoint was good, so that the last two integers are known to fit
          have hlate := (hfit.2.resolve_left (not_badAddress_of_ok haddress)).resolve_left
            (not_badPort_of_ok hport)
          have hread := (bind_eq_error.mp hload).resolve_right (by simp)
          obtain ⟨⟨k, hk, hoversized⟩, -⟩ := oversized_of_readAll hread
          exact absurd hoversized (hlate k hk)
  · exact absurd hload (by simp)

/-- An integer that does not fit fails the loading under a key that is not the endpoint's. -/
theorem exists_error_of_not_integersFit (hfit : ¬IntegersFit (fmuBlock root)) :
    ∃ e, loadFmuConfig lib configFile root = .error e ∧
      e.key ≠ "mav_address" ∧ e.key ≠ "mav_port" := by
  unfold loadFmuConfig
  unfold fmuBlock at hfit
  split
  · next fmu hfmu =>
    simp only [hfmu] at hfit
    cases hearly : readAll (FmuConfig.loadTunable lib fmu)
        (FmuConfig.loadCameraFov fmu (FmuConfig.loadAltitudes fmu {})) Tunable.beforeEndpoint with
    | error e => exact ⟨e, rfl, (oversized_of_readAll hearly).2⟩
    | ok early =>
      have hbefore : ∀ k ∈ Tunable.beforeEndpoint, ¬Oversized fmu k := by
        intro k hk hoversized
        obtain ⟨e, he⟩ := readAll_eq_error_of_mem hk (loadTunable_of_oversized hoversized)
          (FmuConfig.loadCameraFov fmu (FmuConfig.loadAltitudes fmu {}))
        exact absurd (he.symm.trans hearly) (by simp)
      -- the endpoint is good, and one of the last two integers does not fit
      have hafter : ¬(BadAddress fmu ∨ BadPort fmu ∨
          ∀ k ∈ Tunable.afterEndpoint, ¬Oversized fmu k) := fun hafter => hfit ⟨hbefore, hafter⟩
      simp only [not_or, not_forall, not_not] at hafter
      obtain ⟨haddress, hport, k, hk, hoversized⟩ := hafter
      cases haddressed : FmuConfig.loadMavAddress configFile fmu early with
      | error e => exact absurd (badAddress_of_error haddressed).2 haddress
      | ok addressed =>
        cases hconnected : FmuConfig.loadMavPort lib configFile fmu addressed with
        | error e => exact absurd (badPort_of_error hconnected).2 hport
        | ok connected =>
          obtain ⟨e, he⟩ : ∃ e, readAll (FmuConfig.loadTunable lib fmu) connected
              Tunable.afterEndpoint = .error e :=
            readAll_eq_error_of_mem hk (loadTunable_of_oversized hoversized) connected
          refine ⟨e, ?_, (oversized_of_readAll he).2⟩
          apply bind_eq_error.mpr
          refine .inr ⟨early, rfl, ?_⟩
          apply bind_eq_error.mpr
          refine .inr ⟨addressed, haddressed, ?_⟩
          apply bind_eq_error.mpr
          exact .inr ⟨connected, hconnected, bind_eq_error.mpr (.inl he)⟩
  · next hmissing =>
    exfalso
    apply hfit
    split
    · next fmu hfmu => exact absurd hfmu (hmissing fmu)
    · simp [IntegersFit, Oversized]

/-- For every document, loading is as promised exactly when the integers that are read fit. -/
theorem loadsSafely_iff_integersFit :
    LoadsSafely lib configFile root ↔ IntegersFit (fmuBlock root) := by
  constructor
  · intro h
    by_contra hfit
    obtain ⟨e, hload, haddress, hport⟩ := exists_error_of_not_integersFit lib configFile root hfit
    cases h.throws e hload with
    | inl hbad => exact haddress hbad.1
    | inr hbad => exact hport hbad.1
  · intro hfit
    constructor
    · exact throws_of_integersFit lib configFile root hfit
    · intro cfg hload
      exact (FmuConfig.Settled.of_loadFmuConfig hload).fallsBack
    · intro cfg hload
      exact (FmuConfig.Settled.of_loadFmuConfig hload).inBounds

end Loading

/-- The library as it reads integers of 64 bits. -/
def documentedAccess : IntegerAccess where
  isIntegral value := value.integral.isSome
  asInt value :=
    match value.integral with
    | some z => if FitsInt z then .ok z else .error "LargestInt out of Int range"
    | none => .error "Value is not convertible to Int."
  isIntegral_eq _ := rfl
  asInt_of_fits value z hz hfits := by simp [hz, hfits]
  asInt_of_not_fits value z hz hfits := ⟨"LargestInt out of Int range", by simp [hz, hfits]⟩

/-- A document whose battery threshold is three billion. -/
def hugeThreshold : JsonObject := [("fmu", .object [("lowbat_threshold", .int 3000000000)])]

/-- The document with a battery threshold of three billion is not loaded at all. -/
theorem hugeThreshold_throws :
    ¬∀ lib configFile root, LoadsSafely lib configFile root := by
  intro h
  have hsafe := h documentedAccess "client.json" hugeThreshold
  have hhuge : ¬IntegersFit (fmuBlock hugeThreshold) := by
    intro hfit
    apply hfit.1 .lowbatThreshold (by decide)
    exact ⟨.int 3000000000, 3000000000, rfl, rfl, by decide⟩
  obtain ⟨e, hload, haddress, hport⟩ :=
    exists_error_of_not_integersFit documentedAccess "client.json" hugeThreshold hhuge
  cases hsafe.throws e hload with
  | inl hbad => exact haddress hbad.1
  | inr hbad => exact hport hbad.1

end CapFmu
