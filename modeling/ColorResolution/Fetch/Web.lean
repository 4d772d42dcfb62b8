import ColorResolution.Fetch.Basic

/-!
# The transport of the web

A client sends the request and reads the answer; what it does for that is not described here. The transport reports an
answer's text if the answer tells of success, and says why there is none otherwise.

Embedded are `fetch_http_https` from the answer on, and `from_reqwest`.
-/
namespace ColorResolution

/-- What a client says went wrong. -/
structure ClientFault where
  timedOut : Bool
  status : Option Nat
  message : String

/-- An answer of a server, with its text as far as it could be read. -/
structure WebAnswer where
  status : Nat
  text : Except ClientFault String

abbrev Client := String → Except ClientFault WebAnswer

/-- The status of an answer that tells of success. -/
def WebAnswer.isSuccess (a : WebAnswer) : Bool := 200 ≤ a.status && a.status < 300

/-- The error that a client's fault is reported as. -/
def ClientFault.error (url : String) (f : ClientFault) : FetchError :=
  if f.timedOut then .timeout url
  else
    match f.status with
    | some code => .status url code
    | none => .http url f.message

/-- The transport of a client. -/
def Client.transport (c : Client) : Transport := fun url =>
  match c url with
  | .error f => .error (f.error url)
  | .ok a => if a.isSuccess then a.text.mapError (ClientFault.error url) else .error (.status url a.status)

theorem ClientFault.error_ne_unsupportedScheme (url other : String) (f : ClientFault) :
    f.error url ≠ .unsupportedScheme other := by
  unfold ClientFault.error
  split
  · simp
  · split <;> simp

/-- A request that was sent never fails for the URL's scheme. -/
theorem Client.transport_ne_unsupportedScheme (c : Client) (url other : String) :
    c.transport url ≠ .error (.unsupportedScheme other) := by
  unfold Client.transport
  split
  next f _ => simpa using f.error_ne_unsupportedScheme url other
  next a _ =>
    split
    · cases a.text with
      | error f =>
        change Except.error (f.error url) ≠ _
        simpa using f.error_ne_unsupportedScheme url other
      | ok text =>
        change Except.ok text ≠ _
        simp
    · simp

end ColorResolution
