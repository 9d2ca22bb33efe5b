import Mathlib.Data.Char
import Mathlib.Data.List.Lex
import Mathlib.Data.List.Sort
import SurfCam.Logic.Machine
import SurfCam.Upload.Host
import SurfCam.Upload.Policy

/-!
# HlsUploader

`HlsUploader.cpp`: one poll scans the output directory, uploads the new segments whose size is
stable, and then the playlist if it changed and lists nothing but uploaded segments.
-/

namespace SurfCam

open Interaction

/-- The members of `HlsUploader`. -/
structure HlsUploader where
  uploadedSegments_ : Finset Str := ∅
  uploadedSegmentOrder_ : List Str := []
  lastPlaylistWrite_ : Option Int := none

namespace HlsUploader

def resetSession (_ : HlsUploader) : HlsUploader := {}

def onSegmentUploaded (u : HlsUploader) (segmentFilename : Str) : HlsUploader :=
  let (uploaded, order) :=
    HlsUploadPolicy.recordSegmentUploaded segmentFilename u.uploadedSegments_
      u.uploadedSegmentOrder_
  { u with uploadedSegments_ := uploaded, uploadedSegmentOrder_ := order }

/-- How a poll ends: it returns, or a `fs::filesystem_error` leaves it. -/
inductive PollOutcome where
  | returned (result : Bool)
  | threw
  deriving DecidableEq

/-- `path::extension()` of a file name: from the last dot on, unless that dot starts the name. -/
def extension (filename : Str) : Str :=
  if filename = ".".toList ∨ filename = "..".toList then []
  else
    let tail := (filename.reverse.takeWhile (· ≠ '.')).reverse
    let stem := (filename.reverse.dropWhile (· ≠ '.')).reverse
    if stem.length ≤ 1 then [] else '.' :: tail

/-- Three equal, nonzero sizes, 200 ms apart. -/
def fileSizeStable (path : Str) : Prog Host Bool := do
  match ← host (.fileSize path) with
  | none => return false
  | some a =>
    if a = 0 then return false
    host (.sleepFor 200)
    match ← host (.fileSize path) with
    | none => return false
    | some b =>
      if b ≠ a then return false
      host (.sleepFor 200)
      match ← host (.fileSize path) with
      | none => return false
      | some c => return c == b

/-- `allPlaylistSegmentsUploaded`. -/
def allPlaylistSegmentsUploaded (u : HlsUploader) (playlistPath : Str) : Prog Host Bool := do
  match ← host (.readText playlistPath) with
  | none => return false
  | some text => return HlsUploadPolicy.playlistAllTsLinesUploaded text u.uploadedSegments_

/-- The scan of the directory, with the names found so far: `none` when the iteration or
`is_regular_file()` throws. -/
def scanEntries (dirPath : Str) (tsFiles : List Str) : List Str → Prog Host (Option (List Str))
  | [] => return some tsFiles
  | filename :: rest => do
    match ← host (.isRegularFile (pathAppend dirPath filename)) with
    | none => return none
    | some false => scanEntries dirPath tsFiles rest
    | some true =>
      if extension filename = ".ts".toList then scanEntries dirPath (tsFiles ++ [filename]) rest
      else scanEntries dirPath tsFiles rest

section

variable (api : PresignClient) (spotId dirPath : Str)

/-- One turn of the segment loop. -/
def uploadSegment (u : HlsUploader) (name : Str) : Prog Host HlsUploader := do
  if name ∈ u.uploadedSegments_ then return u
  if !(← fileSizeStable (pathAppend dirPath name)) then return u
  let key := HlsUploadPolicy.s3KeyForFile spotId name
  if ← api key "video/mp2t".toList (pathAppend dirPath name) then
    return u.onSegmentUploaded name
  return u

/-- The playlist half of a poll. -/
def uploadPlaylist (u : HlsUploader) : Prog Host (HlsUploader × PollOutcome) := do
  let playlist := pathAppend dirPath Config.HLS_PLAYLIST_NAME
  match ← host (.fileExists playlist) with
  | none => return (u, .threw)
  | some playlistExists =>
    if !playlistExists then return (u, .returned true)
    match ← host (.lastWriteTime playlist) with
    | none => return (u, .returned true)
    | some mtime =>
      if u.lastPlaylistWrite_ = some mtime then return (u, .returned true)
      if !(← fileSizeStable playlist) then return (u, .returned true)
      if !(← u.allPlaylistSegmentsUploaded playlist) then return (u, .returned true)
      let pk := HlsUploadPolicy.s3KeyForFile spotId Config.HLS_PLAYLIST_NAME
      if ← api pk "application/vnd.apple.mpegurl".toList playlist then
        return ({ u with lastPlaylistWrite_ := some mtime }, .returned true)
      return (u, .returned true)

/-- `pollAndUpload`; the members are passed on also when it throws. -/
def pollAndUpload (u : HlsUploader) : Prog Host (HlsUploader × PollOutcome) := do
  if !(← host (.isDirectory dirPath)) then return (u, .returned false)
  match ← host (.directoryEntries dirPath) with
  | none => return (u, .threw)
  | some entries =>
    match ← scanEntries dirPath [] entries with
    | none => return (u, .threw)
    | some tsFiles =>
      let u ← (tsFiles.insertionSort (· ≤ ·)).foldlM (uploadSegment api spotId dirPath) u
      uploadPlaylist api spotId dirPath u

end

end HlsUploader

/-- The life of one `HlsUploader`: its owner resets it and polls, in any order. -/
def uploaderCode (api : PresignClient) (spotId : Str) : Code Host Unit where
  Pc _ := HlsUploader
  body _ u := do
    match ← host .nextCall with
    | .resetSession => return some u.resetSession
    | .pollAndUpload dirPath =>
      let (u, _) ← u.pollAndUpload api spotId dirPath
      return some u

end SurfCam
