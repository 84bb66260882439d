import ApprovalFlow.Decision.Config

/-!
# Fallbacks field by field

* `Intended`: each field as its own entry has it, or the fallback's value.
* `ReadsFinite`: no entry reads as a number that is not finite.
* `mergeThresholds_ok_iff`: when the merge succeeds, and with what; `mergeThresholds_intended_iff`: as
  intended exactly when the entries read as finite.
-/

namespace ApprovalFlow
open Numeric Async

/-- The entry reads as NaN or as an infinity. -/
def ReadsSpecial (entry : Option String) : Prop :=
  ∃ value, entry.bind DecimalValue.ofText = some value ∧ ∀ d, value ≠ .finite d

/-- The number of an entry, or the fallback where it is no usable finite number. -/
def usableDecimal (entry : Option String) (fallback : Decimal) : Decimal :=
  match entry.bind DecimalValue.ofText with
  | some (.finite d) => d
  | _ => fallback

def usableFloat (entry : Option String) (fallback : PyFloat) : PyFloat :=
  match entry.bind PyFloat.ofText with
  | some (.finite neg mag) => .finite neg mag
  | _ => fallback

/-- Each field as its own entry has it, the rules the non-empty trimmed parts of theirs. -/
structure Intended (raw : RawConfig) (fallback thresholds : AutonomyThresholds) : Prop where
  ceiling : thresholds.ceiling = usableDecimal (raw "ceiling") fallback.ceiling
  minConfidence : thresholds.minConfidence = usableFloat (raw "min_confidence") fallback.minConfidence
  receiptRequiredAbove : thresholds.receiptRequiredAbove =
    usableDecimal (raw "receipt_required_above") fallback.receiptRequiredAbove
  mealPerAttendeeCap : thresholds.mealPerAttendeeCap =
    usableDecimal (raw "meal_per_attendee_cap") fallback.mealPerAttendeeCap
  saasMonthlyCap : thresholds.saasMonthlyCap =
    usableDecimal (raw "saas_monthly_cap") fallback.saasMonthlyCap
  hardwareCap : thresholds.hardwareCap = usableDecimal (raw "hardware_cap") fallback.hardwareCap
  travelManagerApprovalThreshold : thresholds.travelManagerApprovalThreshold =
    usableDecimal (raw "travel_manager_approval_threshold") fallback.travelManagerApprovalThreshold
  rules_fallback : raw "severe_violation_rules" = none →
    ∀ rule, rule ∈ thresholds.severeViolationRules ↔ rule ∈ fallback.severeViolationRules
  rules_parsed : ∀ text, raw "severe_violation_rules" = some text →
    ∀ rule, rule ∈ thresholds.severeViolationRules ↔
    ∃ part ∈ text.toList.splitOn ',', Text.strip Text.isSpace part ≠ [] ∧
      rule = String.ofList (Text.strip Text.isSpace part)

/-- The fields that hold decimals. -/
def decimalFields : List String :=
  ["ceiling", "receipt_required_above", "meal_per_attendee_cap", "saas_monthly_cap", "hardware_cap",
    "travel_manager_approval_threshold"]

/-- No entry of a decimal reads as NaN or an infinity, and that of the confidence only as the fallback's
own. -/
structure ReadsFinite (raw : RawConfig) (fallback : AutonomyThresholds) : Prop where
  decimals : ∀ field ∈ decimalFields, ¬ ReadsSpecial (raw field)
  minConfidence : ∀ x, (raw "min_confidence").bind PyFloat.ofText = some x →
    (∀ neg mag, x ≠ .finite neg mag) → x = fallback.minConfidence

/-! ## One field -/

section Field
variable {raw : RawConfig} {field : String} {fallback : Decimal}

theorem parseDecimal_none (h : (raw field).bind DecimalValue.ofText = none) :
    parseDecimal field raw fallback = .ok (.finite fallback) := by
  unfold parseDecimal
  cases hentry : raw field with
  | none => rfl
  | some text =>
    rw [hentry, Option.bind_some] at h
    dsimp only
    rw [h]

theorem parseDecimal_some {value : DecimalValue} (h : (raw field).bind DecimalValue.ofText = some value) :
    parseDecimal field raw fallback =
      if value = .nan true then .error (.arithmetic .invalidOperation) else .ok value := by
  obtain ⟨text, hentry, htext⟩ := Option.bind_eq_some_iff.mp h
  unfold parseDecimal
  rw [hentry]
  dsimp only
  rw [htext]
  cases value with
  | finite d => rfl
  | infinity neg => rfl
  | nan s => cases s <;> rfl

/-- What is parsed and then validated is a usable number, and no special one. -/
theorem parseDecimal_valid {value : DecimalValue} {d : Decimal}
    (hparse : parseDecimal field raw fallback = .ok value)
    (hvalid : validDecimal value = .ok d) :
    ¬ ReadsSpecial (raw field) ∧ d = usableDecimal (raw field) fallback := by
  have hvalue : value = .finite d := by
    cases value with
    | finite d' => cases hvalid; rfl
    | infinity neg => cases hvalid
    | nan s => cases hvalid
  subst hvalue
  unfold ReadsSpecial usableDecimal
  cases hread : (raw field).bind DecimalValue.ofText with
  | none =>
    rw [parseDecimal_none hread] at hparse
    cases hparse
    refine ⟨?_, rfl⟩
    rintro ⟨_, h, -⟩
    cases h
  | some read =>
    rw [parseDecimal_some hread] at hparse
    split_ifs at hparse
    cases hparse
    refine ⟨?_, rfl⟩
    rintro ⟨_, h, hne⟩
    cases h
    exact hne d rfl

theorem parseDecimal_usable (h : ¬ ReadsSpecial (raw field)) :
    parseDecimal field raw fallback = .ok (.finite (usableDecimal (raw field) fallback)) := by
  unfold usableDecimal
  cases hread : (raw field).bind DecimalValue.ofText with
  | none => exact parseDecimal_none hread
  | some read =>
    rw [parseDecimal_some hread]
    cases read with
    | finite d => rfl
    | infinity neg => exact absurd ⟨_, hread, fun d hd => (by cases hd)⟩ h
    | nan s => exact absurd ⟨_, hread, fun d hd => (by cases hd)⟩ h

end Field

theorem mergeMinConfidence_eq_iff {raw : RawConfig} {fallback : PyFloat} :
    mergeMinConfidence raw fallback = usableFloat (raw "min_confidence") fallback ↔
      ∀ x, (raw "min_confidence").bind PyFloat.ofText = some x →
        (∀ neg mag, x ≠ .finite neg mag) → x = fallback := by
  have hmerge : mergeMinConfidence raw fallback =
      ((raw "min_confidence").bind PyFloat.ofText).getD fallback := by
    unfold mergeMinConfidence
    cases raw "min_confidence" with
    | none => rfl
    | some text => rw [Option.bind_some]
  rw [hmerge, usableFloat]
  cases (raw "min_confidence").bind PyFloat.ofText with
  | none => simp
  | some x =>
    cases x with
    | finite neg mag =>
      refine ⟨fun _ y hy hne => ?_, fun _ => rfl⟩
      cases hy
      exact absurd rfl (hne neg mag)
    | inf neg => simp
    | nan => simp

theorem mem_parseRules {text rule : String} : rule ∈ parseRules text ↔ ∃ part ∈ text.toList.splitOn ',',
    Text.strip Text.isSpace part ≠ [] ∧ rule = String.ofList (Text.strip Text.isSpace part) := by
  unfold parseRules
  simp only [List.mem_map, List.mem_filter, decide_eq_true_eq]
  constructor
  · rintro ⟨_, ⟨⟨part, hpart, rfl⟩, hne⟩, rfl⟩
    exact ⟨part, hpart, hne, rfl⟩
  · rintro ⟨part, hpart, hne, rfl⟩
    exact ⟨_, ⟨⟨part, hpart, rfl⟩, hne⟩, rfl⟩

/-! ## The merge -/

/-- The thresholds of a merge that succeeds. -/
def merged (raw : RawConfig) (fallback : AutonomyThresholds) : AutonomyThresholds where
  ceiling := usableDecimal (raw "ceiling") fallback.ceiling
  minConfidence := mergeMinConfidence raw fallback.minConfidence
  receiptRequiredAbove := usableDecimal (raw "receipt_required_above") fallback.receiptRequiredAbove
  mealPerAttendeeCap := usableDecimal (raw "meal_per_attendee_cap") fallback.mealPerAttendeeCap
  saasMonthlyCap := usableDecimal (raw "saas_monthly_cap") fallback.saasMonthlyCap
  hardwareCap := usableDecimal (raw "hardware_cap") fallback.hardwareCap
  travelManagerApprovalThreshold :=
    usableDecimal (raw "travel_manager_approval_threshold") fallback.travelManagerApprovalThreshold
  severeViolationRules := ((raw "severe_violation_rules").map parseRules).getD fallback.severeViolationRules

section Merge
variable {raw : RawConfig} {fallback thresholds : AutonomyThresholds}

/-- **One special decimal fails the merge**, and nothing else does. -/
theorem mergeThresholds_ok_iff : mergeThresholds raw fallback = .ok thresholds ↔
    (∀ field ∈ decimalFields, ¬ ReadsSpecial (raw field)) ∧ thresholds = merged raw fallback := by
  constructor
  · intro h
    unfold mergeThresholds at h
    -- the six fields are parsed, then validated
    obtain ⟨_, hp₁, h⟩ := bind_ok h
    obtain ⟨_, hp₂, h⟩ := bind_ok h
    obtain ⟨_, hp₃, h⟩ := bind_ok h
    obtain ⟨_, hp₄, h⟩ := bind_ok h
    obtain ⟨_, hp₅, h⟩ := bind_ok h
    obtain ⟨_, hp₆, h⟩ := bind_ok h
    obtain ⟨_, hv₁, h⟩ := bind_ok h
    obtain ⟨_, hv₂, h⟩ := bind_ok h
    obtain ⟨_, hv₃, h⟩ := bind_ok h
    obtain ⟨_, hv₄, h⟩ := bind_ok h
    obtain ⟨_, hv₅, h⟩ := bind_ok h
    obtain ⟨_, hv₆, h⟩ := bind_ok h
    obtain ⟨hn₁, rfl⟩ := parseDecimal_valid hp₁ hv₁
    obtain ⟨hn₂, rfl⟩ := parseDecimal_valid hp₂ hv₂
    obtain ⟨hn₃, rfl⟩ := parseDecimal_valid hp₃ hv₃
    obtain ⟨hn₄, rfl⟩ := parseDecimal_valid hp₄ hv₄
    obtain ⟨hn₅, rfl⟩ := parseDecimal_valid hp₅ hv₅
    obtain ⟨hn₆, rfl⟩ := parseDecimal_valid hp₆ hv₆
    cases h
    exact ⟨by simp [decimalFields, *], rfl⟩
  · rintro ⟨hfinite, rfl⟩
    have hparse {field : String} (hmem : field ∈ decimalFields) (fb : Decimal) :
        parseDecimal field raw fb = .ok (.finite (usableDecimal (raw field) fb)) :=
      parseDecimal_usable (hfinite field hmem)
    unfold mergeThresholds
    rw [hparse (by simp [decimalFields]), hparse (by simp [decimalFields]),
      hparse (by simp [decimalFields]),
      hparse (by simp [decimalFields]), hparse (by simp [decimalFields]), hparse (by simp [decimalFields])]
    rfl

theorem merged_intended_iff : Intended raw fallback (merged raw fallback) ↔
    mergeMinConfidence raw fallback.minConfidence =
      usableFloat (raw "min_confidence") fallback.minConfidence := by
  constructor
  · intro h
    exact h.minConfidence
  · intro h
    refine ⟨rfl, h, rfl, rfl, rfl, rfl, rfl, fun hentry rule => ?_, fun text hentry rule => ?_⟩
    · unfold merged
      rw [hentry]
      rfl
    · unfold merged
      rw [hentry]
      exact mem_parseRules

theorem mergeThresholds_intended_iff :
    (∃ thresholds, mergeThresholds raw fallback = .ok thresholds ∧ Intended raw fallback thresholds) ↔
      ReadsFinite raw fallback := by
  constructor
  · rintro ⟨_, hok, hintended⟩
    obtain ⟨hfinite, rfl⟩ := mergeThresholds_ok_iff.mp hok
    exact ⟨hfinite, mergeMinConfidence_eq_iff.mp hintended.minConfidence⟩
  · intro h
    exact ⟨_, mergeThresholds_ok_iff.mpr ⟨h.decimals, rfl⟩,
      merged_intended_iff.mpr (mergeMinConfidence_eq_iff.mpr h.minConfidence)⟩

end Merge

/-! ## The startup -/

section Load
variable {σ : Sig} {raw : RawConfig} {fallback : AutonomyThresholds}

theorem run_load {S C : Type} {h : Handler σ Exn S C} {cs : List C} {s : S}
    {getConfiguration : Prog σ Exn RawConfig}
    (policyFallback : String) (hfetch : ((fetchRawConfig getConfiguration).run h cs s).1 = .returned raw) :
    ((loadPolicyAndThresholds getConfiguration policyFallback fallback).run h cs s).1 = Outcome.ofExcept
      ((mergeThresholds raw fallback).map fun thresholds =>
        ((raw "policy_text").getD policyFallback, thresholds)) := by
  have hload : loadPolicyAndThresholds getConfiguration policyFallback fallback =
      (fetchRawConfig getConfiguration).attempt fun r => .ofExcept (r.bind fun raw =>
        (mergeThresholds raw fallback).map fun thresholds =>
          ((raw "policy_text").getD policyFallback, thresholds)) := by
    unfold loadPolicyAndThresholds
    rw [Prog.bind_eq]
    refine Prog.attempt_congr fun r => ?_
    cases r with
    | error e => rfl
    | ok raw =>
      show (Prog.ofExcept (mergeThresholds raw fallback)).attempt _ =
          .ofExcept ((mergeThresholds raw fallback).map _)
      cases mergeThresholds raw fallback <;> rfl
  rw [hload, Prog.run_attempt_ofExcept, hfetch]
  rfl

/-- **The configuration is as intended exactly when its entries read as finite**, for the merge and for
every startup whose store answers with them. -/
theorem configuration_intended_iff (raw : RawConfig) (fallback : AutonomyThresholds)
    (policyFallback : String) (getConfiguration : Prog σ Exn RawConfig) :
    ((∃ thresholds, mergeThresholds raw fallback = .ok thresholds ∧ Intended raw fallback thresholds) ↔
      ReadsFinite raw fallback) ∧
    ∀ {S C : Type} (h : Handler σ Exn S C) (cs : List C) (s : S),
      ((fetchRawConfig getConfiguration).run h cs s).1 = .returned raw →
      ((∃ thresholds, ((loadPolicyAndThresholds getConfiguration policyFallback fallback).run h cs s).1 =
          .returned ((raw "policy_text").getD policyFallback, thresholds) ∧
            Intended raw fallback thresholds) ↔
        ReadsFinite raw fallback) := by
  refine ⟨mergeThresholds_intended_iff, fun h cs s hfetch => ?_⟩
  rw [run_load policyFallback hfetch, ← mergeThresholds_intended_iff]
  refine exists_congr fun thresholds => and_congr_left' ?_
  cases mergeThresholds raw fallback with
  | error e => exact ⟨fun h => (by cases h), fun h => (by cases h)⟩
  | ok t =>
    constructor
    · intro h
      cases h
      rfl
    · intro h
      cases h
      rfl

end Load

/-- A store that holds one entry. -/
def entry (field text : String) : RawConfig := fun key => if key = field then some text else none

/-- With `0.9` the startup succeeds, as intended. -/
theorem confidence_loaded : ∃ thresholds,
    ((loadPolicyAndThresholds (.ret (entry "min_confidence" "0.9")) "policy" defaultThresholds).run
      Decider.idle [] ()).1 = .returned ("policy", thresholds) ∧
    Intended (entry "min_confidence" "0.9") defaultThresholds thresholds := by
  refine ((configuration_intended_iff (entry "min_confidence" "0.9") defaultThresholds "policy"
    (.ret (entry "min_confidence" "0.9"))).2 Decider.idle [] () rfl).mpr ⟨?_, ?_⟩
  · intro field hfield
    have hnone : entry "min_confidence" "0.9" field = none := by
      simp only [decimalFields, List.mem_cons, List.not_mem_nil, or_false] at hfield
      rcases hfield with rfl | rfl | rfl | rfl | rfl | rfl <;> rfl
    rintro ⟨value, hvalue, -⟩
    rw [hnone] at hvalue
    cases hvalue
  · intro x hx hspecial
    have hread : PyFloat.ofText "0.9" = some (.finite false (8106479329266893 / 9007199254740992)) := by
      decide +kernel
    cases hread.symm.trans hx
    exact absurd rfl (hspecial _ _)

/-- A ceiling that reads as NaN, as an infinity or as a signaling NaN ends the startup, and a confidence
of `nan` is taken as it is. -/
theorem special_entries :
    mergeThresholds (entry "ceiling" "NaN") defaultThresholds = .error .validationError ∧
    mergeThresholds (entry "ceiling" "Infinity") defaultThresholds = .error .validationError ∧
    mergeThresholds (entry "ceiling" "sNaN") defaultThresholds = .error (.arithmetic .invalidOperation) ∧
    ∃ thresholds, mergeThresholds (entry "min_confidence" "nan") defaultThresholds = .ok thresholds ∧
      ¬ Intended (entry "min_confidence" "nan") defaultThresholds thresholds := by
  refine ⟨by decide +kernel, by decide +kernel, by decide +kernel, { defaultThresholds with
    minConfidence := .nan }, by decide +kernel, fun h => ?_⟩
  have hconfidence := h.minConfidence
  revert hconfidence
  decide +kernel

end ApprovalFlow
