import Mathlib.Data.List.Basic

/-!
# Configuration

The constants of `include/Config.h` that the modelled functions read.  A `std::string` is a `Str`:
a list with one character per byte, so that nothing depends on an encoding.
-/

namespace SurfCam

/-- A `std::string`, one character per byte. -/
abbrev Str := List Char

namespace Config

def HLS_OUTPUT_DIR : Str := "/tmp/surfcam-hls".toList

def HLS_PLAYLIST_NAME : Str := "index.m3u8".toList

def HLS_PRESIGN_PATH : Str := "/hls/presign".toList

/-- In seconds. -/
def SNAPSHOT_INTERVAL : Nat := 30

/-- In seconds. -/
def STREAM_CHECK_INTERVAL : Nat := 5

/-- In seconds. -/
def STREAM_TIMEOUT : Int := 30

/-- In milliseconds. -/
def HLS_UPLOAD_POLL : Nat := 400

def CAMERA_WIDTH : Nat := 1280

def CAMERA_HEIGHT : Nat := 720

def STREAM_FPS : Nat := 15

end Config

end SurfCam
