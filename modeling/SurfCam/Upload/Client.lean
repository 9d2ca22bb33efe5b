import SurfCam.Upload.Host

/-!
# ApiClient — presign and PUT

`ApiClient::uploadLocalFileWithPresign`: up to four attempts, each a presign POST followed by a PUT
of the file to the URL that it returned.  The JSON library is a parameter: `parse` is what
`nlohmann::json::parse` makes of a body, or nothing when it throws.
-/

namespace SurfCam

open Interaction

/-- A `nlohmann::json` value. -/
inductive Json where
  | null
  | boolean (b : Bool)
  | number (n : Int)
  | string (s : Str)
  | array (elements : List Json)
  | object (members : List (Str × Json))

namespace Json

/-- `j.contains(key)` and `j[key]` in one. -/
def member? : Json → Str → Option Json
  | object members, key => members.lookup key
  | _, _ => none

/-- The pairs of the loop over `j["headers"].begin()` to `end()` whose value is a string. -/
def stringMembers : Json → List (Str × Str)
  | object members => members.filterMap fun (key, value) =>
    match value with
    | string s => some (key, s)
    | _ => none
  | _ => []

end Json

def curlErrorIsTransient (c : CurlCode) : Bool :=
  c = .operationTimedout ∨ c = .couldntConnect ∨ c = .sendError ∨ c = .recvError ∨
    c = .gotNothing ∨ c = .sslConnectError

def httpStatusIsTransient (code : Nat) : Bool :=
  code = 429 ∨ code = 502 ∨ code = 503 ∨ code = 504

def kPresignedTransferMaxAttempts : Nat := 4

/-- The transfer went through and the server answered 2xx. -/
def HttpReply.success (r : HttpReply) : Bool := r.curl = .ok ∧ 200 ≤ r.status ∧ r.status < 300

/-- Whether a failed transfer is tried again. -/
def HttpReply.transient (r : HttpReply) : Bool :=
  curlErrorIsTransient r.curl || (r.curl = .ok && httpStatusIsTransient r.status)

/-- What libcurl reads of `s.c_str()`: the characters before the first NUL. -/
def cStr (s : Str) : Str := s.takeWhile (· ≠ '\x00')

/-- A header of the PUT, as `curl_slist_append` gets it. -/
def headerLine (header : Str × Str) : Str := cStr (header.1 ++ ": ".toList ++ header.2)

/-- The members of `ApiClient`. -/
structure ApiClient where
  apiEndpoint_ : Str
  apiKey_ : Str

namespace ApiClient

/-- The nonempty `presignUrl` and the `presignResponseHeaders` of a presign response. -/
def presignResult (parse : Str → Option Json) (r : HttpReply) : Option (Str × List (Str × Str)) :=
  if r.curl = .ok ∧ r.status = 200 then
    match parse r.body with
    | none => none
    | some j =>
      match j.member? "url".toList with
      | some (.string presignUrl) =>
        if presignUrl = [] then none
        else some (presignUrl, ((j.member? "headers".toList).map Json.stringMembers).getD [])
      | _ => none
  else none

section

variable (parse : Str → Option Json) (self : ApiClient) (objectKey contentType filePath : Str)

/-- The body of the loop after its sleep: the result, or nothing to go on with the next attempt. -/
def transferAttempt (fsize : Nat) : Prog Host (Option Bool) := do
  if !(← host .curlEasyInit) then return some false
  let postUrl := self.apiEndpoint_ ++ Config.HLS_PRESIGN_PATH
  let authHeader := "Authorization: ApiKey ".toList ++ self.apiKey_
  match ← host (.presignPost (cStr postUrl) (cStr authHeader) objectKey contentType) with
  -- an exception leaves the CURL code at CURLE_OK and the status at 0, which is not transient
  | none => return some false
  | some presignReply =>
    match presignResult parse presignReply with
    | none => return if presignReply.transient then none else some false
    | some (presignUrl, presignResponseHeaders) =>
      match ← host (.openBinary filePath) with
      | none => return some false
      | some file =>
        if !(← host .curlEasyInit) then return some false
        let putReply ← host
          (.put (cStr presignUrl) (presignResponseHeaders.map headerLine) file fsize)
        if putReply.success then return some true
        return if putReply.transient then none else some false

/-- The loop from `attempt` on, with `left` attempts to go. -/
def transferAttempts (fsize attempt : Nat) : (left : Nat) → Prog Host Bool
  | 0 => return false
  | left + 1 => do
    if attempt > 0 then host (.sleepFor (250 * attempt))
    match ← transferAttempt parse self objectKey contentType filePath fsize with
    | some result => return result
    | none => transferAttempts fsize (attempt + 1) left

/-- What the loop does with the outcome of an attempt. -/
def settle (again : Prog Host Bool) : Option Bool → Prog Host Bool
  | some result => return result
  | none => again

theorem transferAttempts_succ (fsize attempt left : Nat) :
    transferAttempts parse self objectKey contentType filePath fsize attempt (left + 1) =
      let rest := transferAttempt parse self objectKey contentType filePath fsize >>=
        settle (transferAttempts parse self objectKey contentType filePath fsize (attempt + 1) left)
      if attempt > 0 then host (.sleepFor (250 * attempt)) >>= fun _ => rest else rest := by
  have hsettle : ∀ again : Prog Host Bool, (fun
      | some result => return result
      | none => again) = settle again := by
    intro again
    funext outcome
    cases outcome <;> rfl
  rw [transferAttempts, hsettle]

def uploadLocalFileWithPresign : Prog Host Bool := do
  match ← host (.fileSize filePath) with
  | none => return false
  | some fsize =>
    if fsize = 0 then return false
    transferAttempts parse self objectKey contentType filePath fsize 0 kPresignedTransferMaxAttempts

end

end ApiClient

end SurfCam
