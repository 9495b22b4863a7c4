import GateRasu.Lib.Checked
import GateRasu.Lib.Scan
import GateRasu.Lib.Attempts
import GateRasu.Lib.Text
import GateRasu.Lib.Numeral
import GateRasu.Lib.Latest
import GateRasu.Lib.Transducer
import GateRasu.Lib.Lifecycle
import GateRasu.Lib.Binary32
import GateRasu.QtString
import GateRasu.Signal
import GateRasu.Connector
import GateRasu.Decode.Reader
import GateRasu.Decode.Cells
import GateRasu.Decode.Words
import GateRasu.Decode.Reply
import GateRasu.Decode.Image
import GateRasu.Decode.Polls
import GateRasu.Decode.Feeds
import GateRasu.Decode.Declared
import GateRasu.Ini.Reader
import GateRasu.Ini.Line
import GateRasu.Ini.Safety
import GateRasu.Ini.Config
import GateRasu.Ini.Item
import GateRasu.Ini.Numbers
import GateRasu.Ini.Frame
import GateRasu.Ini.RoundTrip
import GateRasu.Ini.Meaning
import GateRasu.Ini.Entries
import GateRasu.Publish
import GateRasu.Manual
import GateRasu.ErrKey
import GateRasu.Gateway
import GateRasu.Gateway.Runs
import GateRasu.Gateway.Start
import GateRasu.Gateway.Quality
import GateRasu.Gateway.Shown
import GateRasu.Gateway.Mirror
import GateRasu.Gateway.Snapshot
import GateRasu.Gateway.Published
import GateRasu.Gateway.Independent
import GateRasu.Gateway.Layout
import GateRasu.Gateway.Uninit
import GateRasu.Session
import GateRasu.Session.Messages
import GateRasu.Session.Steps
import GateRasu.Session.Objects
import GateRasu.Session.Clients
import GateRasu.Session.Refines
import GateRasu.Session.Log
import GateRasu.Session.Tally
import GateRasu.Session.Config
import GateRasu.MainLoop
import GateRasu.MainLoop.Puts
