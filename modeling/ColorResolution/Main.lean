import ColorResolution.Fetch.FileTree
import ColorResolution.Listing

/-!
# Command line

Lists the colours of the arguments, or of the samples when there are none. Files are read before the listing is made;
URLs of the web are answered by an error, as there is no transport here.

Embedded is the `main` of `resolve_colors`, but for its transport.
-/
namespace ColorResolution.CommandLine

/-- The number of a system error; some layers negate it. -/
def errorNumber (code : UInt32) : Nat := if code < 0x80000000 then code.toNat else (0 - code).toNat

/-- The fault that a system error means. -/
def fault? (code : UInt32) : Option FileTree.Fault :=
  match errorNumber code with
  | 2 => some .notFound
  | 20 => some .notDirectory
  | 21 => some .isDirectory
  | 36 => some .nameTooLong
  | _ => none

/-- The sentence for a system error. -/
def sentence (code : UInt32) (details : String) : String :=
  ((fault? code).map FileTree.Fault.message).getD s!"{details} (os error {errorNumber code})"

/-- What a file's reader reports. -/
def describe : IO.Error → String
  | .noFileOrDirectory _ code details => sentence code details
  | .inappropriateType _ code details => sentence code details
  | .invalidArgument _ code details => sentence code details
  | .permissionDenied _ code details => sentence code details
  | e => toString e

def readPath (path : String) : IO (Except String ByteArray) := do
  try return .ok (← IO.FS.readBinFile path)
  catch e => return .error (describe e)

/-- The file that a URL names, with what is in it. -/
def readUrl (url : String) : IO (Option (String × Except String ByteArray)) := do
  match Route.ofUrl url with
  | .file path => return some (path, ← readPath path)
  | _ => return none

/-- The file system made of the files that were read. -/
def fileSystem (files : List (String × Except String ByteArray)) : FileSystem := fun path =>
  (files.lookup path).getD (.error FileTree.Fault.notFound.message)

def noTransport : Transport := fun url => .error (.http url "no transport for the web")

end ColorResolution.CommandLine

open ColorResolution in
def main (args : List String) : IO Unit := do
  let files ← (Listing.urls args).filterMapM CommandLine.readUrl
  let lines := Listing.lines (fetch {} CommandLine.noTransport (CommandLine.fileSystem files)) args
  lines.forM IO.println
