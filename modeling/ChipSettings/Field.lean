/-! # Fields of the Settings

  The settings hold two lists of layer names and eleven numbers. Each number is a
  field of the form a user edits:

  - `Measure` names the ten real fields, `Field` all eleven: the bar count is the
    one integer among them.
  - A field has a name (its element in a document), a label (shown to the user) and
    a rule that its text has to meet.
-/

namespace ChipSettings

/-! ## Layer Kinds -/

/-- The two sets of drawing layers. -/
inductive LayerKind where
  /-- Layers that hold flow channels. -/
  | flow
  /-- Layers that hold control channels. -/
  | control
deriving DecidableEq, Inhabited

namespace LayerKind

/-- Both kinds, in the order they are shown and written. -/
def all : List LayerKind := [flow, control]

/-- Both kinds are listed. -/
theorem mem_all (k : LayerKind) : k ∈ all := by cases k <;> decide

/-- Short name of the kind. -/
def name : LayerKind → String
  | flow => "Flow"
  | control => "Control"

/-- Label shown to the user. -/
def label : LayerKind → String
  | flow => "Flow Layers"
  | control => "Control Layers"

/-- Name of the document element that holds the kind's layer names. -/
def elementName : LayerKind → String
  | flow => "FlowLayers"
  | control => "ControlLayers"

end LayerKind

/-! ## Rules -/

/-- What the text of a field has to be. -/
inductive Rule where
  /-- A 32-bit integer above zero. -/
  | positiveInteger
  /-- A finite real. -/
  | number
  /-- A finite real above zero. -/
  | positiveNumber
deriving DecidableEq

namespace Rule

/-- All rules. -/
def all : List Rule := [positiveInteger, number, positiveNumber]

/-- Name of the rule. -/
def name : Rule → String
  | positiveInteger => "PositiveInteger"
  | number => "Number"
  | positiveNumber => "PositiveNumber"

end Rule

/-! ## Numeric Fields -/

/-- The ten real fields. -/
inductive Measure where
  | punchBarWidth
  | punchRadius
  | valveRelativeWidth
  | valveRelativeHeight
  | resolution
  | connectionWidth
  | flowExtraWidth
  | valveExtraWidth
  | controlLineExtraWidth
  | punchToLine
deriving DecidableEq, Inhabited

/-- The eleven numeric fields. -/
inductive Field where
  /-- Number of bars drawn across a punch, the one integer. -/
  | punchBarNumber
  /-- A real field. -/
  | measure (m : Measure)
deriving DecidableEq, Inhabited

namespace Measure

/-- The real fields, in document order. -/
def all : List Measure :=
  [punchBarWidth, punchRadius, valveRelativeWidth, valveRelativeHeight, resolution,
    connectionWidth, flowExtraWidth, valveExtraWidth, controlLineExtraWidth, punchToLine]

/-- Every real field is listed. -/
theorem mem_all (m : Measure) : m ∈ all := by cases m <;> decide

/-- No real field is listed twice. -/
theorem nodup_all : all.Nodup := by decide

end Measure

namespace Field

/-- All fields, in document order: the bar count first. -/
def all : List Field := punchBarNumber :: Measure.all.map measure

/-- Every field is listed. -/
theorem mem_all (f : Field) : f ∈ all := by
  cases f with
  | punchBarNumber => decide
  | measure m => exact List.mem_cons_of_mem _ (List.mem_map_of_mem (Measure.mem_all m))

/-- No field is listed twice. -/
theorem nodup_all : all.Nodup := by decide

/-- Name of the field, which is the name of its document element. -/
def name : Field → String
  | punchBarNumber => "PunchBarNumber"
  | measure .punchBarWidth => "PunchBarWidth"
  | measure .punchRadius => "PunchRadius"
  | measure .valveRelativeWidth => "ValveRelativeWidth"
  | measure .valveRelativeHeight => "ValveRelativeHeight"
  | measure .resolution => "Resolution"
  | measure .connectionWidth => "ConnectionWidth"
  | measure .flowExtraWidth => "FlowExtraWidth"
  | measure .valveExtraWidth => "ValveExtraWidth"
  | measure .controlLineExtraWidth => "ControlLineExtraWidth"
  | measure .punchToLine => "Punch2Line"

/-- Label shown to the user. -/
def label : Field → String
  | punchBarNumber => "Number of Bars"
  | measure .punchBarWidth => "Width of each Bar"
  | measure .punchRadius => "Punch Radius"
  | measure .valveRelativeWidth => "Valve Width to Flowline Width Ratio"
  | measure .valveRelativeHeight => "Valve Height to Flowline Width Ratio"
  | measure .resolution => "Minimum Distance between Lines"
  | measure .connectionWidth => "Connection Line Width"
  | measure .flowExtraWidth => "Extra Space around a Flowline"
  | measure .valveExtraWidth => "Extra Space around a Valve"
  | measure .controlLineExtraWidth => "Extra Space around a Control Line"
  | measure .punchToLine => "Minimum Distance from Punch Center to Line"

/-- The rule of the field: counts and the two sizes that must not vanish are
    positive, every other number is free. -/
def rule : Field → Rule
  | punchBarNumber => .positiveInteger
  | measure .punchRadius => .positiveNumber
  | measure .resolution => .positiveNumber
  | measure _ => .number

end Field

end ChipSettings
