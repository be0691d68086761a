import Oxutrm.Sync.Convergence
import Oxutrm.Sync.Hostile
import Oxutrm.Sync.Acknowledgement
import Oxutrm.Host.Sizes
import Oxutrm.Host.KeystrokeRuns
import Oxutrm.Client.Identity
import Oxutrm.Client.Displacement
import Oxutrm.Client.Race
import Oxutrm.Client.Probing
import Oxutrm.Client.Failover
import Oxutrm.Client.Schedule
import Oxutrm.Paint.Incremental
import Oxutrm.Paint.Recovery
import Oxutrm.Paint.Framing
import Oxutrm.Paint.Restore
import Oxutrm.Paint.Placeholder
import Oxutrm.Sync.RunColumns
import Oxutrm.Client.Rotation
import Oxutrm.Config.Saving
import Oxutrm.Host.Names
import Oxutrm.Host.Lobby
import Oxutrm.Net.IceRuns
import Oxutrm.Net.Report
import Oxutrm.Ui.Choices
import Oxutrm.Ui.Pasting
import Oxutrm.Sync.Bounds
import Oxutrm.Host.OscOutput
import Oxutrm.Host.Snapshot
import Oxutrm.Paint.Titles
import Oxutrm.Paint.Overlay
import Oxutrm.Ui.Keyboard
import Oxutrm.Ui.PasteReads
import Oxutrm.Ui.Ids
import Oxutrm.Client.Choose
import Oxutrm.Net.Spki
import Oxutrm.Net.Demux
import Oxutrm.Net.FrameSink
import Oxutrm.Proto.Signalling
import Oxutrm.Host.Window
import Oxutrm.Host.BlinkPlane
import Oxutrm.Log.Accounts
import Oxutrm.Net.GuessedPorts
import Oxutrm.Host.Fitting
import Oxutrm.Ui.Typing
import Oxutrm.Popup.Layout
import Oxutrm.Host.Copies
import Oxutrm.Client.Previews
import Oxutrm.Host.Roots
import Oxutrm.Client.Roaming
import Oxutrm.Client.Quality
import Oxutrm.Net.Discovery
import Oxutrm.Net.Agreement
import Oxutrm.Net.Ending
