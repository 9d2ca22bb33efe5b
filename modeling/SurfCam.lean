import SurfCam.Logic.Program
import SurfCam.Logic.Machine
import SurfCam.Logic.RelyGuarantee
import SurfCam.Logic.Residue
import SurfCam.Logic.Watch
import SurfCam.Logic.Facts
import SurfCam.Logic.Product
import SurfCam.Logic.SlidingWindow
import SurfCam.Logic.Recent
import SurfCam.Logic.Rounding
import SurfCam.Logic.Trace
import SurfCam.Logic.Path
import SurfCam.Config
import SurfCam.Upload.Policy
import SurfCam.Upload.Names
import SurfCam.Upload.Lines
import SurfCam.Upload.Host
import SurfCam.Upload.Client
import SurfCam.Upload.Uploader
import SurfCam.Upload.PollSteps
import SurfCam.Upload.PollRules
import SurfCam.Upload.Order
import SurfCam.Upload.Publish
import SurfCam.Upload.Growing
import SurfCam.Upload.Skip
import SurfCam.Upload.Window
import SurfCam.Upload.Restart
import SurfCam.Upload.Settled
import SurfCam.Upload.Drain
import SurfCam.Upload.Transfer
import SurfCam.Upload.Replaced
import SurfCam.App.Decision
import SurfCam.App.WallClock
import SurfCam.Camera.Calls
import SurfCam.Camera.Manager
import SurfCam.Camera.Callbacks
import SurfCam.App.Monitor
import SurfCam.App.Readings
import SurfCam.App.StopRule
import SurfCam.App.Warnings
import SurfCam.App.Workers
import SurfCam.App.Footprint
import SurfCam.Camera.World
import SurfCam.System
import SurfCam.Camera.Members
import SurfCam.Camera.Modes
import SurfCam.Camera.Footprint
import SurfCam.Camera.Requests
import SurfCam.Camera.Serial
import SurfCam.Camera.Locks
import SurfCam.Camera.Owned
import SurfCam.Camera.StopWait
import SurfCam.Camera.LoopJoin
import SurfCam.Camera.Ledger
import SurfCam.Camera.Managers
import SurfCam.Camera.Buses
import SurfCam.Camera.SetUp
import SurfCam.Camera.Attempt
import SurfCam.Camera.Restored
import SurfCam.Camera.Lifetimes
import SurfCam.Camera.Releases
import SurfCam.Camera.Dispatch
import SurfCam.App.Recheck
import SurfCam.App.Lifecycle
import SurfCam.App.Session
import SurfCam.App.Starts
import SurfCam.App.Recovery
import SurfCam.App.Repairs
import SurfCam.App.EmergencyStop
import SurfCam.App.Snapshot
import SurfCam.Camera.LockOrder
import SurfCam.App.EncoderFailure
import SurfCam.Camera.Pushes
import SurfCam.Camera.Rollback
import SurfCam.App.OwnFiles
import SurfCam.App.Standing
import SurfCam.App.Undefined
import SurfCam.App.AtHand
import SurfCam.App.Shutdown
import SurfCam.App.Budget
import SurfCam.Logic.Resources
import SurfCam.Upload.Handles
import SurfCam.Upload.HandleLedger
import SurfCam.Logic.Discipline
import SurfCam.Logic.Simulation
import SurfCam.Upload.HandleClient
import SurfCam.Upload.MockServer
import SurfCam.Upload.MockUpload
import SurfCam.Camera.Guards
