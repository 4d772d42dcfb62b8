import ColorResolution.Binary.Basic
import ColorResolution.Color.Basic

/-!
# Channels as floating numbers

A byte is written as the share of 255 that it is. Back from a number of 32 bits there are three readings: a level
from 0 to 255, a share from 0 to 1, and an alpha value, which is a share up to 1 and a level above. What lies outside
the range is clamped, a half is rounded up, and not-a-number reads as 0.

Embedded are `clamp_to_byte` as `ofLevel`, `unit_to_byte` as `ofShare` and `alpha_to_byte` as `ofAlpha`, and `white`,
`from_rgba_f32` and `to_rgba_f32` of a `Color`.
-/
namespace ColorResolution

open Binary

namespace Channel

/-- The natural nearest to `num / den`; of two equally near the larger one. -/
def halfUp (num den : Nat) : Nat := (2 * num + den) / (2 * den)

/-- The byte nearest to a level. -/
def ofLevel : Number → UInt8
  | .nan => 0
  | .infinite s => if s then 0 else 255
  | .finite s m e => if s then 0 else UInt8.ofNat (min 255 (halfUp (scaleUp m e) (scaleUp 1 (-e))))

/-- The number moved into the range from 0 to 1. -/
def clampShare (x : Number) : Number :=
  match x with
  | .nan => .nan
  | .infinite s => if s then single.zero false else single.ofNat 1
  | .finite s _ _ => if s then single.zero false else if x.isAtMostOne then x else single.ofNat 1

/-- The byte nearest to a share, after the share has been multiplied by 255 in 32 bits. -/
def ofShare (x : Number) : UInt8 := ofLevel (single.mul (clampShare x) (single.ofNat 255))

/-- The byte of an alpha value. -/
def ofAlpha (x : Number) : UInt8 := if x.isAtMostOne then ofShare x else ofLevel x

/-- The share that a byte is. -/
def share (b : UInt8) : Number := single.div (single.ofNat b.toNat) (single.ofNat 255)

end Channel

namespace Color

/-- The opaque grey with a share of white. -/
def ofWhite (level : Number) : Color := grey (Channel.ofShare level)

def ofShares (r g b a : Number) : Color :=
  ⟨Channel.ofShare r, Channel.ofShare g, Channel.ofShare b, Channel.ofShare a⟩

def shares (c : Color) : List Number := [c.r, c.g, c.b, c.a].map Channel.share

end Color

end ColorResolution
