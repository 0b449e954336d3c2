import CapFmu.StateMachine.History
import CapFmu.StateMachine.Resolution
import CapFmu.StateMachine.Actioned
import CapFmu.StateMachine.Retarget
import CapFmu.Fss.ActuatedOnce
import CapFmu.Fss.Conservation
import CapFmu.Fss.CommandQueue
import CapFmu.Mav.DeferredMode
import CapFmu.Mav.UploadAck
import CapFmu.Smm.Acquire
import CapFmu.Smm.HeldSearch
import CapFmu.Smm.OperatorCommand
import CapFmu.Mav.Calls
import CapFmu.Mav.Link
import CapFmu.Mav.Upload
import CapFmu.App.EventLoop
import CapFmu.App.HandOff
import CapFmu.App.Attribution
import CapFmu.Mav.Requests
import CapFmu.Adsb.Throttle
import CapFmu.Mav.Restart
import CapFmu.Fss.SendQueue
import CapFmu.Smm.TaskQueue
import CapFmu.Logging.Logger
import CapFmu.Adsb.KnownAircraft
import CapFmu.Adsb.Allocation
import CapFmu.Adsb.Identity
import CapFmu.Config.FmuConfig
import CapFmu.Config.Fallback
import CapFmu.Mav.Silence
import CapFmu.Handles.Table
import CapFmu.Mav.Socket
import CapFmu.Altitude.Units
import CapFmu.Altitude.Wire
import CapFmu.Files.Rotation
import CapFmu.Logging.Rotation
import CapFmu.Mav.Backoff
import CapFmu.Smm.Progress
import CapFmu.Failsafe.Params
import CapFmu.Failsafe.Apconfig
import CapFmu.App.Shutdown
import CapFmu.App.DispatchOrder
import CapFmu.App.WorkerThreads
import CapFmu.Mav.Wire
import CapFmu.Mav.Coordinates
import CapFmu.Altitude.Limits
import CapFmu.App.Envelope
import CapFmu.Fss.Acknowledged
import CapFmu.Mav.Dial
import CapFmu.Failsafe.Exchange
import CapFmu.App.OwnPosition
