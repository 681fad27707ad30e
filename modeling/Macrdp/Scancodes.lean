import Mathlib.Data.List.Basic

/-!
# Scancodes and virtual keycodes

The client sends scancodes of the first PS/2 set; each table maps the ones of US
keyboards to the platform's virtual keycodes. What a virtual keycode is used for
is told by fixed lists of them.
-/

namespace Macrdp.Scancodes

/-- The mapped scancodes that are not extended. -/
def scancodeNormal : List (UInt8 × UInt16) :=
  [(0x01, 0x35), (0x02, 0x12), (0x03, 0x13), (0x04, 0x14), (0x05, 0x15), (0x06, 0x17),
    (0x07, 0x16), (0x08, 0x1A), (0x09, 0x1C), (0x0A, 0x19), (0x0B, 0x1D), (0x0C, 0x1B),
    (0x0D, 0x18), (0x0E, 0x33), (0x0F, 0x30), (0x10, 0x0C), (0x11, 0x0D), (0x12, 0x0E),
    (0x13, 0x0F), (0x14, 0x11), (0x15, 0x10), (0x16, 0x20), (0x17, 0x22), (0x18, 0x1F),
    (0x19, 0x23), (0x1A, 0x21), (0x1B, 0x1E), (0x1C, 0x24), (0x1D, 0x3B), (0x1E, 0x00),
    (0x1F, 0x01), (0x20, 0x02), (0x21, 0x03), (0x22, 0x05), (0x23, 0x04), (0x24, 0x26),
    (0x25, 0x28), (0x26, 0x25), (0x27, 0x29), (0x28, 0x27), (0x29, 0x0A), (0x2A, 0x38),
    (0x56, 0x32), (0x2B, 0x2A), (0x2C, 0x06), (0x2D, 0x07), (0x2E, 0x08), (0x2F, 0x09),
    (0x30, 0x0B), (0x31, 0x2D), (0x32, 0x2E), (0x33, 0x2B), (0x34, 0x2F), (0x35, 0x2C),
    (0x36, 0x3C), (0x37, 0x43), (0x38, 0x3A), (0x39, 0x31), (0x3A, 0x39), (0x3B, 0x7A),
    (0x3C, 0x78), (0x3D, 0x63), (0x3E, 0x76), (0x3F, 0x60), (0x40, 0x61), (0x41, 0x62),
    (0x42, 0x64), (0x43, 0x65), (0x44, 0x6D), (0x47, 0x59), (0x48, 0x5B), (0x49, 0x5C),
    (0x4A, 0x4E), (0x4B, 0x56), (0x4C, 0x57), (0x4D, 0x58), (0x4E, 0x45), (0x4F, 0x53),
    (0x50, 0x54), (0x51, 0x55), (0x52, 0x52), (0x53, 0x41), (0x57, 0x67), (0x58, 0x6F)]

/-- The mapped scancodes that are extended. -/
def scancodeExtended : List (UInt8 × UInt16) :=
  [(0x1C, 0x4C), (0x1D, 0x3E), (0x35, 0x4B), (0x38, 0x3D), (0x47, 0x73), (0x48, 0x7E),
    (0x49, 0x74), (0x4B, 0x7B), (0x4D, 0x7C), (0x4F, 0x77), (0x50, 0x7D), (0x51, 0x79),
    (0x52, 0x72), (0x53, 0x75), (0x5B, 0x37), (0x5C, 0x36)]

/-- The virtual keycode of a scancode. -/
def scancodeToCgkeycode (scancode : UInt8) (extended : Bool) : Option UInt16 :=
  (if extended then scancodeExtended else scancodeNormal).lookup scancode

/-- The keys of the numeric pad. -/
def numericPadVks : List UInt16 :=
  [0x41, 0x43, 0x45, 0x47, 0x4B, 0x4C, 0x4E, 0x51, 0x52, 0x53, 0x54, 0x55, 0x56, 0x57, 0x58,
    0x59, 0x5B, 0x5C]

/-- A key that hardware marks as one of the numeric pad. -/
def isNumericPadVk (vk : UInt16) : Bool := decide (vk ∈ numericPadVks)

/-- The keys of editing shortcuts. -/
def remappableVks : List UInt16 :=
  [0x08, 0x09, 0x07, 0x00, 0x06, 0x01, 0x03, 0x2D, 0x11, 0x0D, 0x1F, 0x23, 0x0F, 0x05]

/-- A key of an editing shortcut, of which Control is taken for Command. -/
def isRemappableShortcut (vk : UInt16) : Bool := decide (vk ∈ remappableVks)

/-- The function keys. -/
def functionKeyVks : List UInt16 :=
  [0x7A, 0x78, 0x63, 0x76, 0x60, 0x61, 0x62, 0x64, 0x65, 0x6D, 0x67, 0x6F]

/-- A function key. -/
def isFunctionKeyVk (vk : UInt16) : Bool := decide (vk ∈ functionKeyVks)

/-- The keys that type text: Return, Tab and Space do not. -/
def isTranslatableKeycode (vk : UInt16) : Bool :=
  decide (vk ≤ 0x32) && decide (vk ≠ 0x24) && decide (vk ≠ 0x30) && decide (vk ≠ 0x31)

end Macrdp.Scancodes
