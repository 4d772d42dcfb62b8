import ColorResolution.Error
import ColorResolution.Table

/-!
# Replies and cached texts

What lies behind URLs as far as a fetcher is concerned: a text, a failure or a crash, at once or behind a gate that has
to be opened first. A reply does not depend on the URL, but a failure reports the URL that was asked for.

A cache in front of a fetcher, the `CachingFetcher`, keeps the texts that were fetched, by URL. A fetch looks into the
cache when it begins and stores its text when it ends; failures are not stored. Between the two the cache may have
changed.
-/
namespace ColorResolution

/-- A cause of failure, without the URL it will be reported for. -/
inductive Failure where
  | http (message : String)
  | status (code : Nat)
  | io (message : String)
  | timeout
  | forbidden
  | unsupportedScheme
  | emptyPayload
  | aborted
  deriving DecidableEq, Repr

/-- The error that a URL's failure is reported as. -/
def Failure.error (url : String) : Failure → FetchError
  | .http message => .http url message
  | .status code => .status url code
  | .io message => .io url message
  | .timeout => .timeout url
  | .forbidden => .forbidden url
  | .unsupportedScheme => .unsupportedScheme url
  | .emptyPayload => .emptyPayload url
  | .aborted => .aborted

/-- What a fetch ends with. -/
inductive Answer where
  | body (text : String)
  | failure (cause : Failure)
  | crash
  deriving DecidableEq, Repr

/-- The end of a URL's fetch as its caller sees it; a crash is an aborted task. -/
def Answer.result (url : String) : Answer → Except FetchError String
  | .body text => .ok text
  | .failure cause => .error (cause.error url)
  | .crash => .error .aborted

/-- An answer, and whether it stands behind a gate. -/
structure Reply where
  answer : Answer
  gated : Bool
  deriving DecidableEq, Repr

abbrev Replies := Table Reply

/-- The reply of an unknown URL. -/
def Reply.unknown : Reply := ⟨.failure (.status 404), false⟩

/-- The reply in force for a URL. -/
def Replies.reply (replies : Replies) (url : String) : Reply := (replies.get? url).getD .unknown

/-! ## Cached texts -/

abbrev Cache := Table String

namespace Cache

/-- The cache after a URL's fetch has ended. -/
def finish (c : Cache) (url : String) : Except FetchError String → Cache
  | .ok text => c.insert url text
  | .error _ => c

theorem get?_finish_ok (c : Cache) (url other text : String) :
    (c.finish url (.ok text)).get? other = if other = url then some text else c.get? other :=
  Table.get?_insert c url other text

end Cache

end ColorResolution
