import SurfCam.Config
import SurfCam.Logic.Program

/-!
# What the uploader calls

The calls of `HlsUploader.cpp` and of `ApiClient::uploadLocalFileWithPresign` into the file system,
libcurl and their owner, with every reply these can give.  A file is identified by its path; a read
returns the bytes of one version of the file, since the stream stays open on it.
-/

namespace SurfCam

open Interaction

/-- A `CURLcode`, as far as the code tells them apart. -/
inductive CurlCode where
  | ok
  | operationTimedout
  | couldntConnect
  | sendError
  | recvError
  | gotNothing
  | sslConnectError
  | other (code : Nat)
  deriving DecidableEq

/-- What `curl_easy_perform` and `CURLINFO_RESPONSE_CODE` leave of a request. -/
structure HttpReply where
  curl : CurlCode
  status : Nat
  body : Str
  deriving DecidableEq

/-- What the owner of an `HlsUploader` asks of it next. -/
inductive UploaderCall where
  | resetSession
  | pollAndUpload (dirPath : Str)
  deriving DecidableEq

inductive HostCall where
  /-- `fs::is_directory(path, ec)` -/
  | isDirectory (path : Str)
  /-- the file names of a `fs::directory_iterator(path, ec)`; advancing it may throw -/
  | directoryEntries (path : Str)
  /-- `entry.is_regular_file()`, which may throw -/
  | isRegularFile (path : Str)
  /-- `fs::file_size(path, ec)` -/
  | fileSize (path : Str)
  /-- `fs::exists(path)`, which may throw -/
  | fileExists (path : Str)
  /-- `fs::last_write_time(path, ec)` -/
  | lastWriteTime (path : Str)
  /-- `std::ifstream in(path)`, read to its end -/
  | readText (path : Str)
  /-- `std::ifstream file(path, std::ios::binary)`, kept for the transfer -/
  | openBinary (path : Str)
  /-- `std::this_thread::sleep_for` -/
  | sleepFor (milliseconds : Nat)
  /-- `curl_easy_init() != nullptr` -/
  | curlEasyInit
  /-- the presign POST of `key` and `content_type`; building the request may throw -/
  | presignPost (url authHeader key contentType : Str)
  /-- the PUT of at most `infileSize` bytes of an open file; the headers are lines -/
  | put (url : Str) (headers : List Str) (file : Str) (infileSize : Nat)
  /-- `IHlsPresignClient::uploadLocalFileWithPresign`, seen from outside -/
  | uploadLocalFileWithPresign (objectKey contentType filePath : Str)
  /-- the owner's next call -/
  | nextCall
  deriving DecidableEq

/-- The replies; `none` is a set error code, or an exception of a call that may throw. -/
@[reducible] def HostCall.Reply : HostCall → Type
  | isDirectory _ => Bool
  | directoryEntries _ => Option (List Str)
  | isRegularFile _ => Option Bool
  | fileSize _ => Option Nat
  | fileExists _ => Option Bool
  | lastWriteTime _ => Option Int
  | readText _ => Option Str
  | openBinary _ => Option Str
  | sleepFor _ => Unit
  | curlEasyInit => Bool
  | presignPost _ _ _ _ => Option HttpReply
  | put _ _ _ _ => HttpReply
  | uploadLocalFileWithPresign _ _ _ => Bool
  | nextCall => UploaderCall

/-- The calls of the upload path. -/
@[reducible] def Host : Signature where
  Call := HostCall
  Reply := HostCall.Reply

/-- One call of the upload path. -/
abbrev host (c : HostCall) : Prog Host c.Reply := .call c .ret

/-- An `IHlsPresignClient`: `uploadLocalFileWithPresign(objectKey, contentType, filePath)`. -/
abbrev PresignClient := Str → Str → Str → Prog Host Bool

/-- A client of which only the answers are known. -/
def anyClient : PresignClient := fun objectKey contentType filePath =>
  host (.uploadLocalFileWithPresign objectKey contentType filePath)

/-- `fs::path(dirPath) / filename`. -/
def pathAppend (dirPath filename : Str) : Str :=
  if dirPath = [] ∨ dirPath.getLast? = some '/' then dirPath ++ filename
  else dirPath ++ '/' :: filename

theorem pathAppend_eq (dirPath filename : Str) :
    pathAppend dirPath filename = pathAppend dirPath [] ++ filename := by
  simp only [pathAppend]
  split <;> simp

theorem pathAppend_injective (dirPath : Str) : Function.Injective (pathAppend dirPath) := by
  intro a b h
  rw [pathAppend_eq dirPath a, pathAppend_eq dirPath b] at h
  exact List.append_cancel_left h

end SurfCam
