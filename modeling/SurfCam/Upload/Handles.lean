import SurfCam.Upload.Client

/-!
# ApiClient with its handles

The three requests of `ApiClient.cpp`, call by call: what libcurl hands out and takes back, and the
file that `FileMmap` maps.  Pointers and descriptors are numbers; a null pointer, an error return and
an exception of a call are no reply.  `std::bad_alloc` is left out.
-/

namespace SurfCam

open Interaction

namespace Config

/-- In seconds. -/
def REQUEST_TIMEOUT : Nat := 10

end Config

/-- What `curl_easy_setopt` makes of a request. -/
inductive RequestBody where
  | get
  | post (payload : Str)
  | mime (mime : Nat)
  | upload (file : Str) (infileSize : Nat)
  deriving DecidableEq

/-- The options that are set before `curl_easy_perform`; the timeouts are in seconds. -/
structure Request where
  url : Str
  httpHeader : Option Nat
  body : RequestBody
  timeout : Nat
  connectTimeout : Nat
  deriving DecidableEq

inductive MimeData where
  | mapped (addr len : Nat)
  | text (value : Str)
  deriving DecidableEq

structure MimePart where
  name : Str
  filename : Option Str := none
  type : Option Str := none
  data : MimeData
  deriving DecidableEq

/-- The requests of an `ApiClient`. -/
inductive ApiRequest where
  | uploadSnapshot (imagePath spotId : Str)
  | isStreamingRequested (spotId : Str)
  | uploadLocalFileWithPresign (objectKey contentType filePath : Str)
  deriving DecidableEq

inductive NetCall where
  | curlEasyInit
  | curlEasyCleanup (curl : Nat)
  | curlEasyEscape (curl : Nat) (text : Str)
  | curlFree (escaped : Nat)
  | curlSlistAppend (list : Option Nat) (line : Str)
  | curlSlistFreeAll (list : Nat)
  | curlMimeInit (curl : Nat)
  | curlMimeFree (mime : Nat)
  /-- `curl_mime_addpart` with the name, the type and the data of the part -/
  | curlMimeData (mime : Nat) (part : MimePart)
  | curlEasyPerform (curl : Nat) (request : Request)
  | openFile (path : Str)
  /-- the `st_size` of an open file -/
  | fstat (fd : Nat)
  | mmap (fd len : Nat)
  | close (fd : Nat)
  | munmap (addr len : Nat)
  /-- `std::put_time` of the local time -/
  | localTime
  /-- `body.dump()` of the key and the content type, which throws for invalid UTF-8 -/
  | dump (key contentType : Str)
  | fileSize (path : Str)
  | openBinary (path : Str)
  | sleepFor (milliseconds : Nat)
  /-- the owner's next request -/
  | nextRequest
  deriving DecidableEq

@[reducible] def NetCall.Reply : NetCall → Type
  | curlEasyInit | curlSlistAppend _ _ | curlMimeInit _ | openFile _ | mmap _ _ => Option Nat
  -- the pointer and the text there
  | curlEasyEscape _ _ => Option (Nat × Str)
  | curlMimeData _ _ => Bool
  | curlEasyPerform _ _ => HttpReply
  | fstat _ => Option Int
  | localTime => Str
  | dump _ _ => Option Str
  | fileSize _ => Option Nat
  | openBinary _ => Option Str
  | nextRequest => ApiRequest
  | _ => Unit

/-- The calls of `ApiClient.cpp`. -/
@[reducible] def Net : Signature where
  Call := NetCall
  Reply := NetCall.Reply

/-- One call of `ApiClient.cpp`. -/
abbrev net (c : NetCall) : Prog Net c.Reply := .call c .ret

/-! ## FileMmap -/

/-- `FileMmap::map` of a mapping that is empty: the address and the length. -/
def FileMmap.map (path : Str) : Prog Net (Option (Nat × Nat)) := do
  match ← net (.openFile path) with
  | none => return none
  | some fd =>
    match ← net (.fstat fd) with
    | none =>
      net (.close fd)
      return none
    | some size =>
      if size ≤ 0 then
        net (.close fd)
        return none
      let addr ← net (.mmap fd size.toNat)
      net (.close fd)
      return addr.map (·, size.toNat)

/-! ## Header lists -/

/-- `if (headers) curl_slist_free_all(headers);` -/
def freeHeaders : Option Nat → Prog Net Unit
  | none => return ()
  | some list => net (.curlSlistFreeAll list)

/-- `headers = curl_slist_append(headers, line)` for all lines. -/
def appendHeaders : (lines : List Str) → Option Nat → Prog Net (Option Nat)
  | [], list => return list
  | line :: lines, list => do
    let list ← net (.curlSlistAppend list line)
    appendHeaders lines list

namespace ApiClient

section

variable (self : ApiClient)

def authHeader : Str := cStr ("Authorization: ApiKey ".toList ++ self.apiKey_)

/-! ## uploadSnapshot -/

/-- From the time stamp on: the headers, and whether the server has answered 200. -/
def postSnapshot (curl mime : Nat) (spotId : Str) : Prog Net (Option Nat × Bool) := do
  let timestamp ← net .localTime
  let _ ← net (.curlMimeData mime { name := "timestamp".toList, data := .text (cStr timestamp) })
  let _ ← net (.curlMimeData mime { name := "spot_id".toList, data := .text (cStr spotId) })
  let headers ← net (.curlSlistAppend none self.authHeader)
  let reply ← net (.curlEasyPerform curl {
    url := cStr (self.apiEndpoint_ ++ "/upload-snapshot".toList)
    httpHeader := headers
    body := .mime mime
    timeout := Config.REQUEST_TIMEOUT
    connectTimeout := 5 })
  return (headers, reply.curl = .ok ∧ reply.status = 200)

def uploadSnapshot (imagePath spotId : Str) : Prog Net Bool := do
  match ← net .curlEasyInit with
  | none => return false
  | some curl =>
    match ← FileMmap.map imagePath with
    | none =>
      net (.curlEasyCleanup curl)
      return false
    -- the destructor of `imageMap` unmaps behind the clean-up of an early return, and in front of
    -- the one at the end
    | some (addr, len) =>
      match ← net (.curlMimeInit curl) with
      | none =>
        net (.curlEasyCleanup curl)
        net (.munmap addr len)
        return false
      | some mime =>
        let part : MimePart :=
          { name := "file".toList
            filename := some "snapshot.jpg".toList
            type := some "image/jpeg".toList
            data := .mapped addr len }
        if !(← net (.curlMimeData mime part)) then
          net (.curlMimeFree mime)
          net (.curlEasyCleanup curl)
          net (.munmap addr len)
          return false
        let (headers, success) ← postSnapshot self curl mime spotId
        net (.munmap addr len)
        net (.curlMimeFree mime)
        freeHeaders headers
        net (.curlEasyCleanup curl)
        return success

/-! ## isStreamingRequested -/

/-- The URL of the request. -/
def streamingUrl (escapedSpot : Str) : Str :=
  self.apiEndpoint_ ++ "/check-streaming-requested?spot_id=".toList ++ escapedSpot

/-- What the response says, if it is one that counts. -/
def streamRequested (parse : Str → Option Json) (r : HttpReply) : Option Bool :=
  if r.curl = .ok ∧ r.status = 200 then
    match (parse r.body).bind fun j => j.member? "stream_requested".toList with
    | some (.boolean b) => some b
    | _ => none
  else none

def isStreamingRequested (parse : Str → Option Json) (spotId : Str) :
    Prog Net (Option Bool) := do
  match ← net .curlEasyInit with
  | none => return none
  | some curl =>
    match ← net (.curlEasyEscape curl (cStr spotId)) with
    | none =>
      net (.curlEasyCleanup curl)
      return none
    | some (pointer, escapedSpot) =>
      let url := self.streamingUrl escapedSpot
      net (.curlFree pointer)
      let headers ← net (.curlSlistAppend none self.authHeader)
      let reply ← net (.curlEasyPerform curl {
        url := cStr url
        httpHeader := headers
        body := .get
        timeout := 10
        connectTimeout := 5 })
      freeHeaders headers
      net (.curlEasyCleanup curl)
      return streamRequested parse reply

/-! ## uploadLocalFileWithPresign -/

/-- The `try` of an attempt: the header list that it leaves, and the reply unless it has thrown. -/
def postPresign (presignCurl : Nat) (objectKey contentType : Str) :
    Prog Net (Option Nat × Option HttpReply) := do
  match ← net (.dump objectKey contentType) with
  | none => return (none, none)
  | some payload =>
    let presignHeaders ← appendHeaders
      [self.authHeader, "Content-Type: application/json".toList] none
    let reply ← net (.curlEasyPerform presignCurl {
      url := cStr (self.apiEndpoint_ ++ Config.HLS_PRESIGN_PATH)
      httpHeader := presignHeaders
      body := .post payload
      timeout := Config.REQUEST_TIMEOUT
      connectTimeout := 10 })
    return (presignHeaders, some reply)

variable (parse : Str → Option Json) (objectKey contentType filePath : Str)

/-- The PUT of an attempt. -/
def putFile (presignUrl : Str) (presignResponseHeaders : List (Str × Str)) (fsize : Nat) :
    Prog Net (Option Bool) := do
  match ← net (.openBinary filePath) with
  | none => return some false
  | some file =>
    match ← net .curlEasyInit with
    | none => return some false
    | some put =>
      let putHeaders ← appendHeaders (presignResponseHeaders.map headerLine) none
      let putReply ← net (.curlEasyPerform put {
        url := cStr presignUrl
        httpHeader := putHeaders
        body := .upload file fsize
        timeout := Config.REQUEST_TIMEOUT
        connectTimeout := 10 })
      freeHeaders putHeaders
      net (.curlEasyCleanup put)
      if putReply.success then return some true
      return if putReply.transient then none else some false

/-- `transferAttempt` with its handles. -/
def attempt (fsize : Nat) : Prog Net (Option Bool) := do
  match ← net .curlEasyInit with
  | none => return some false
  | some presignCurl =>
    let (presignHeaders, presignReply) ← postPresign self presignCurl objectKey contentType
    freeHeaders presignHeaders
    net (.curlEasyCleanup presignCurl)
    match presignReply with
    | none => return some false
    | some presignReply =>
      match presignResult parse presignReply with
      | none => return if presignReply.transient then none else some false
      | some (presignUrl, presignResponseHeaders) =>
        putFile filePath presignUrl presignResponseHeaders fsize

/-- `transferAttempts` with its handles. -/
def attempts (fsize number : Nat) : (left : Nat) → Prog Net Bool
  | 0 => return false
  | left + 1 => do
    if number > 0 then net (.sleepFor (250 * number))
    match ← attempt self parse objectKey contentType filePath fsize with
    | some result => return result
    | none => attempts fsize (number + 1) left

/-- `uploadLocalFileWithPresign` with its handles. -/
def upload : Prog Net Bool := do
  match ← net (.fileSize filePath) with
  | none => return false
  | some fsize =>
    if fsize = 0 then return false
    attempts self parse objectKey contentType filePath fsize 0 kPresignedTransferMaxAttempts

/-- A thread that makes one request after the other. -/
def clientBody : Prog Net (Option Unit) := do
  match ← net .nextRequest with
  | .uploadSnapshot imagePath spotId =>
    let _ ← uploadSnapshot self imagePath spotId
    return some ()
  | .isStreamingRequested spotId =>
    let _ ← isStreamingRequested self parse spotId
    return some ()
  | .uploadLocalFileWithPresign objectKey contentType filePath =>
    let _ ← upload self parse objectKey contentType filePath
    return some ()

end

end ApiClient

end SurfCam
