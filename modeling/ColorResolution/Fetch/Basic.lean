import ColorResolution.Error

/-!
# Fetching what a URL names

The text before the first `://` of a URL is its scheme. A web scheme is answered by a transport, the scheme of files
and the absence of a scheme by a file system, if the configuration allows that; any other scheme is refused. A file's
text has to be UTF-8. Transports are not described here.

Embedded are `fetch` and `fetch_file` of a `NetworkFetcher`, and its `FetchConfig`.
-/
namespace ColorResolution

structure FetchConfig where
  userAgent : String := "Swatch/0.1 (reqwest)"
  timeoutMilliseconds : Nat := 30000
  allowFiles : Bool := true
  deriving DecidableEq, Repr

/-- A file system answers a path with the bytes of the file, or says why there are none. -/
abbrev FileSystem := String → Except String ByteArray

/-- A transport answers a URL of the web. -/
abbrev Transport := String → Except FetchError String

/-- Who answers a URL. -/
inductive Route where
  | web
  | file (path : String)
  | unsupported
  deriving DecidableEq, Repr

namespace Route

/-- What stands before the first `://`, if there is one. -/
def scheme? : List Char → Option (List Char)
  | [] => none
  | ':' :: '/' :: '/' :: _ => some []
  | c :: cs => (scheme? cs).map (c :: ·)

/-- The route of a URL. Without a scheme the whole of it is a path. -/
def ofUrl (url : String) : Route :=
  match scheme? url.toList with
  | none => .file url
  | some scheme =>
    match String.ofList (scheme.map Char.toLower) with
    | "http" => .web
    | "https" => .web
    | "file" => .file (String.ofList (url.toList.drop 7))
    | _ => .unsupported

end Route

/-- The text of a file, if it is UTF-8. -/
def readFileText (files : FileSystem) (path : String) : Except String String :=
  match files path with
  | .error message => .error message
  | .ok bytes =>
    match String.fromUTF8? bytes with
    | some text => .ok text
    | none => .error "stream did not contain valid UTF-8"

/-- Fetches the text behind a URL. -/
def fetch (config : FetchConfig) (transport : Transport) (files : FileSystem) (url : String) :
    Except FetchError String :=
  match Route.ofUrl url with
  | .web => transport url
  | .unsupported => .error (.unsupportedScheme url)
  | .file path =>
    if config.allowFiles then (readFileText files path).mapError (.io url) else .error (.forbidden url)

end ColorResolution
