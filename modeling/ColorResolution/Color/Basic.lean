/-!
# Colours

A colour is four bytes: red, green, blue and alpha. An alpha of 255 is opaque.

Embedded is `Color` with `rgb`, `with_alpha`, `is_opaque` and its constants.
-/
namespace ColorResolution

structure Color where
  r : UInt8
  g : UInt8
  b : UInt8
  a : UInt8
  deriving DecidableEq, Repr

namespace Color

/-- An opaque colour. -/
def rgb (r g b : UInt8) : Color := ⟨r, g, b, 255⟩

/-- An opaque colour with three equal channels. -/
def grey (level : UInt8) : Color := rgb level level level

def withAlpha (c : Color) (a : UInt8) : Color := { c with a }

def isOpaque (c : Color) : Bool := c.a == 255

def white : Color := grey 255
def black : Color := grey 0
def red : Color := rgb 255 0 0
def green : Color := rgb 0 255 0
def blue : Color := rgb 0 0 255
def yellow : Color := rgb 255 255 0
def gray : Color := grey 128
def transparent : Color := ⟨0, 0, 0, 0⟩

end Color

end ColorResolution
