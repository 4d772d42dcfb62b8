/-!
# Unresolved colours

Why a text or a URL did not resolve to a colour, and the sentence that reports it: `ColorError` and `FetchError` with
what they display.
-/
namespace ColorResolution

/-- Why a fetch failed. Every cause but an aborted task names the URL that was asked for. -/
inductive FetchError where
  | http (url message : String)
  | status (url : String) (code : Nat)
  | io (url message : String)
  | timeout (url : String)
  | forbidden (url : String)
  | unsupportedScheme (url : String)
  | emptyPayload (url : String)
  | aborted
  deriving DecidableEq, Repr

def FetchError.message : FetchError → String
  | .http url text => s!"request to `{url}` failed: {text}"
  | .status url code => s!"`{url}` answered with status {code}"
  | .io url text => s!"cannot read `{url}`: {text}"
  | .timeout url => s!"request to `{url}` timed out"
  | .forbidden url => s!"`{url}` is not allowed by the fetch configuration"
  | .unsupportedScheme url => s!"`{url}` uses an unsupported URL scheme"
  | .emptyPayload url => s!"`{url}` returned an empty payload"
  | .aborted => "fetch task was aborted"

/-- Why no colour was found. The first four causes carry the text that failed. -/
inductive ColorError where
  | invalidColor (text : String)
  | invalidHex (text : String)
  | unresolvedToken (text : String)
  | unknownName (text : String)
  | fetch (cause : FetchError)
  deriving DecidableEq, Repr

def ColorError.message : ColorError → String
  | .invalidColor text => s!"`{text}` is not a recognised color string"
  | .invalidHex text => s!"invalid hex color `{text}`"
  | .unresolvedToken text => s!"design token `{text}` is not defined"
  | .unknownName text => s!"unknown color name `{text}`"
  | .fetch cause => cause.message

end ColorResolution
