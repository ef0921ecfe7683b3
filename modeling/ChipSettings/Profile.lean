import ChipSettings.Field
import ChipSettings.Number.Numeral

/-! # Profiles

  A profile is one complete set of drawing and routing settings: two lists of layer
  names, the bar count and ten real measures.

  - `Profile.real` and `Profile.setReal` reach a measure by name; a measure that was
    set is read back, and every other one is untouched.
  - `Profile.equal` compares profiles as numbers compare: both zeros are equal, and
    a value that is not a number differs from itself.
-/

namespace ChipSettings

open Number

/-- A complete set of drawing and routing settings. -/
structure Profile where
  /-- Names of the layers that hold flow channels. -/
  flowLayers : List String
  /-- Names of the layers that hold control channels. -/
  controlLayers : List String
  /-- Number of bars drawn across a punch. -/
  punchBarNumber : Int32
  /-- Width of one bar of a punch. -/
  punchBarWidth : Binary64
  /-- Radius of a punch. -/
  punchRadius : Binary64
  /-- Valve width as a multiple of the flow line width. -/
  valveRelativeWidth : Binary64
  /-- Valve height as a multiple of the flow line width. -/
  valveRelativeHeight : Binary64
  /-- Least distance between two lines. -/
  resolution : Binary64
  /-- Width of a connection line. -/
  connectionWidth : Binary64
  /-- Space kept free around a flow line. -/
  flowExtraWidth : Binary64
  /-- Space kept free around a valve. -/
  valveExtraWidth : Binary64
  /-- Space kept free around a control line. -/
  controlLineExtraWidth : Binary64
  /-- Least distance from a punch center to another line. -/
  punchToLine : Binary64
deriving DecidableEq

namespace Profile

/-! ## Defaults -/

/-- The number `digits / 10 ^ places`, rounded. -/
def constant (digits places : Nat) : Binary64 :=
  .ofRounded false (Decimal.toMagnitude? ⟨digits, -places⟩)

/-- The compiled-in settings. -/
def default : Profile where
  flowLayers := ["Flow"]
  controlLayers := ["Control"]
  punchBarNumber := 8
  punchBarWidth := constant 12 2
  punchRadius := constant 4 1
  valveRelativeWidth := constant 15 1
  valveRelativeHeight := constant 1 0
  resolution := constant 3 1
  connectionWidth := constant 5 2
  flowExtraWidth := constant 8 2
  valveExtraWidth := constant 8 2
  controlLineExtraWidth := constant 8 2
  punchToLine := constant 1 0

instance : Inhabited Profile := ⟨default⟩

/-! ## Access by Name -/

/-- The layer names of a kind. -/
def layers (p : Profile) : LayerKind → List String
  | .flow => p.flowLayers
  | .control => p.controlLayers

/-- Replace the layer names of a kind. -/
def setLayers (p : Profile) (kind : LayerKind) (names : List String) : Profile :=
  match kind with
  | .flow => { p with flowLayers := names }
  | .control => { p with controlLayers := names }

/-- The value of a measure. -/
def real (p : Profile) : Measure → Binary64
  | .punchBarWidth => p.punchBarWidth
  | .punchRadius => p.punchRadius
  | .valveRelativeWidth => p.valveRelativeWidth
  | .valveRelativeHeight => p.valveRelativeHeight
  | .resolution => p.resolution
  | .connectionWidth => p.connectionWidth
  | .flowExtraWidth => p.flowExtraWidth
  | .valveExtraWidth => p.valveExtraWidth
  | .controlLineExtraWidth => p.controlLineExtraWidth
  | .punchToLine => p.punchToLine

/-- Replace the value of a measure. -/
def setReal (p : Profile) (m : Measure) (x : Binary64) : Profile :=
  match m with
  | .punchBarWidth => { p with punchBarWidth := x }
  | .punchRadius => { p with punchRadius := x }
  | .valveRelativeWidth => { p with valveRelativeWidth := x }
  | .valveRelativeHeight => { p with valveRelativeHeight := x }
  | .resolution => { p with resolution := x }
  | .connectionWidth => { p with connectionWidth := x }
  | .flowExtraWidth => { p with flowExtraWidth := x }
  | .valveExtraWidth => { p with valveExtraWidth := x }
  | .controlLineExtraWidth => { p with controlLineExtraWidth := x }
  | .punchToLine => { p with punchToLine := x }

/-! ## Equality of Settings -/

/-- Equality as numbers compare: layer lists and counts exactly, measures
    numerically. -/
def equal (p q : Profile) : Bool :=
  p.flowLayers == q.flowLayers && p.controlLayers == q.controlLayers &&
    p.punchBarNumber == q.punchBarNumber &&
    Measure.all.all fun m => (p.real m).equal (q.real m)

/-! ## Laws of Access -/

@[simp] theorem real_setReal_self (p : Profile) (m : Measure) (x : Binary64) :
    (p.setReal m x).real m = x := by
  cases m <;> rfl

theorem real_setReal_of_ne (p : Profile) {m n : Measure} (x : Binary64) (h : n ≠ m) :
    (p.setReal m x).real n = p.real n := by
  cases m <;> cases n <;> first | rfl | exact absurd rfl h

@[simp] theorem layers_setReal (p : Profile) (m : Measure) (x : Binary64) (k : LayerKind) :
    (p.setReal m x).layers k = p.layers k := by
  cases m <;> cases k <;> rfl

@[simp] theorem punchBarNumber_setReal (p : Profile) (m : Measure) (x : Binary64) :
    (p.setReal m x).punchBarNumber = p.punchBarNumber := by
  cases m <;> rfl

@[simp] theorem layers_setLayers_self (p : Profile) (k : LayerKind) (names : List String) :
    (p.setLayers k names).layers k = names := by
  cases k <;> rfl

theorem layers_setLayers_of_ne (p : Profile) {k l : LayerKind} (names : List String) (h : l ≠ k) :
    (p.setLayers k names).layers l = p.layers l := by
  cases k <;> cases l <;> first | rfl | exact absurd rfl h

@[simp] theorem real_setLayers (p : Profile) (k : LayerKind) (names : List String) (m : Measure) :
    (p.setLayers k names).real m = p.real m := by
  cases k <;> cases m <;> rfl

@[simp] theorem punchBarNumber_setLayers (p : Profile) (k : LayerKind) (names : List String) :
    (p.setLayers k names).punchBarNumber = p.punchBarNumber := by
  cases k <;> rfl

/-- A profile is its two lists, its count and its ten measures. -/
theorem ext_parts {p q : Profile} (hl : ∀ k, p.layers k = q.layers k)
    (hn : p.punchBarNumber = q.punchBarNumber) (hr : ∀ m, p.real m = q.real m) : p = q := by
  cases p; cases q
  have hf := hl .flow; have hc := hl .control
  have h1 := hr .punchBarWidth; have h2 := hr .punchRadius
  have h3 := hr .valveRelativeWidth; have h4 := hr .valveRelativeHeight
  have h5 := hr .resolution; have h6 := hr .connectionWidth
  have h7 := hr .flowExtraWidth; have h8 := hr .valveExtraWidth
  have h9 := hr .controlLineExtraWidth; have h10 := hr .punchToLine
  simp only [layers, real] at *
  simp_all

end Profile

end ChipSettings
