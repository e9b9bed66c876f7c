/-!
# Chips, strengths and setups

The sound chip exists in two revisions, and sampled units of each fall into three classes by
how strongly simultaneous waveforms pull each other down. A *setup* picks one revision and
one class, and so one family of fitted parameters.

A setup also has a *slot*, its place among the six setups. Distinct setups have distinct
slots, so a store with one place per slot never mixes two setups.
-/

namespace SidVoice

/-- The revisions of the sound chip. -/
inductive Chip where
  /-- The earlier revision, in NMOS. -/
  | mos6581
  /-- The later revision, in HMOS-II, whose combined waveforms are louder. -/
  | mos8580
  deriving DecidableEq, Inhabited

namespace Chip

/-- Every revision, in the order of the fitted parameters. -/
def all : List Chip := [mos6581, mos8580]

/-- The place of a revision in `all`. -/
def index : Chip → Fin 2
  | mos6581 => 0
  | mos8580 => 1

/-- The name as printed on the package, used in log lines. -/
def title : Chip → String
  | mos6581 => "MOS6581"
  | mos8580 => "MOS8580"

/-- The name used in stored configurations. -/
def key : Chip → String
  | mos6581 => "mos6581"
  | mos8580 => "mos8580"

/-- The name used in descriptions of values. -/
def label : Chip → String
  | mos6581 => "Mos6581"
  | mos8580 => "Mos8580"

theorem mem_all (chip : Chip) : chip ∈ all := by cases chip <;> decide

end Chip

/-- How strongly combined waveforms are pulled down on a particular unit. -/
inductive Strength where
  /-- A typical unit. -/
  | average
  /-- A unit with little pulldown, whose combined waveforms are louder. -/
  | weak
  /-- A unit with much pulldown, whose combined waveforms are quieter. -/
  | strong
  deriving DecidableEq, Inhabited

namespace Strength

/-- Every strength, in the order of the fitted parameters. -/
def all : List Strength := [average, weak, strong]

/-- The place of a strength in `all`. -/
def index : Strength → Fin 3
  | average => 0
  | weak => 1
  | strong => 2

/-- The name used in log lines and stored configurations. -/
def key : Strength → String
  | average => "average"
  | weak => "weak"
  | strong => "strong"

/-- The name used in descriptions of values. -/
def label : Strength → String
  | average => "Average"
  | weak => "Weak"
  | strong => "Strong"

theorem mem_all (strength : Strength) : strength ∈ all := by cases strength <;> decide

end Strength

/-- A choice of chip revision and pulldown strength; by default an average 6581. -/
structure Setup where
  /-- The chip revision. -/
  chip : Chip := .mos6581
  /-- The strength of the pulldown. -/
  strength : Strength := .average
  deriving DecidableEq, Inhabited

namespace Setup

/-- The number of setups. -/
def count : Nat := 6

/-- The place of a setup among all setups, chip by chip. -/
def slot (setup : Setup) : Fin count :=
  ⟨setup.chip.index * 3 + setup.strength.index, by unfold count; omega⟩

/-- The same chip at another strength. -/
def withStrength (setup : Setup) (strength : Strength) : Setup :=
  { setup with strength := strength }

/-- The name of a setup in log lines. -/
def title (setup : Setup) : String := setup.chip.title ++ " " ++ setup.strength.key

/-- The description of a setup as a value. -/
def describe (setup : Setup) : String :=
  "TableConfig \x7b chip_model: " ++ setup.chip.label ++
    ", combined_waveforms: " ++ setup.strength.label ++ " \x7d"

/-- Distinct setups have distinct slots. -/
theorem slot_injective {a b : Setup} (h : a.slot = b.slot) : a = b := by
  obtain ⟨ca, sa⟩ := a
  obtain ⟨cb, sb⟩ := b
  revert h
  cases ca <;> cases sa <;> cases cb <;> cases sb <;> decide

end Setup

end SidVoice
