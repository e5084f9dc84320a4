import LiveSound.Archive.Gzip
import LiveSound.Archive.Inflate
import LiveSound.Archive.Tar
import LiveSound.Archive.Unpacking
import LiveSound.Cli.Arguments
import LiveSound.Cli.Build
import LiveSound.Cli.Command
import LiveSound.Cli.Init
import LiveSound.Cli.Run
import LiveSound.Cli.Template
import LiveSound.Compile.Backend
import LiveSound.Compile.Client
import LiveSound.Compile.Diagnostic
import LiveSound.Compile.Dispatcher
import LiveSound.Compile.Harness
import LiveSound.Compile.Pending
import LiveSound.Compile.Request
import LiveSound.Compile.Result
import LiveSound.Compile.Service
import LiveSound.Compile.Session
import LiveSound.Compile.SourceClient
import LiveSound.Compile.Toolchain
import LiveSound.Compile.Wire
import LiveSound.Data.Access
import LiveSound.Data.Basic
import LiveSound.Data.Record
import LiveSound.Event.Basic
import LiveSound.Event.Channel
import LiveSound.Event.Wire
import LiveSound.Guest.Bootstrap
import LiveSound.Guest.Describe
import LiveSound.Guest.Engine
import LiveSound.Guest.SystemCall
import LiveSound.Guest.WebAssembly
import LiveSound.Json.Reader
import LiveSound.Json.Record
import LiveSound.Json.Writer
import LiveSound.Live.Loader
import LiveSound.Live.Session
import LiveSound.Log.Level
import LiveSound.Log.Logger
import LiveSound.Main
import LiveSound.Module
import LiveSound.Net.Charset
import LiveSound.Net.Exchange
import LiveSound.Net.Message
import LiveSound.Net.Status
import LiveSound.Net.Url
import LiveSound.Numeric.Binary
import LiveSound.Numeric.Decimal
import LiveSound.Numeric.Literal
import LiveSound.Numeric.LittleEndian
import LiveSound.Playback.BlockSource
import LiveSound.Playback.Driver
import LiveSound.Playback.Handoff
import LiveSound.Playback.Perf
import LiveSound.Playback.Source
import LiveSound.Playback.WaveFile
import LiveSound.Processor.Basic
import LiveSound.Proofs.Archive.Members
import LiveSound.Proofs.Archive.Unpacking
import LiveSound.Proofs.Cli.NewProject
import LiveSound.Proofs.Cli.Output
import LiveSound.Proofs.Compile.AssetCache
import LiveSound.Proofs.Compile.Attempts
import LiveSound.Proofs.Compile.Correlation
import LiveSound.Proofs.Compile.Deadlines
import LiveSound.Proofs.Compile.DiagnosticLines
import LiveSound.Proofs.Compile.DiagnosticSearch
import LiveSound.Proofs.Compile.DiagnosticTexts
import LiveSound.Proofs.Compile.Eras
import LiveSound.Proofs.Compile.Exchanging
import LiveSound.Proofs.Compile.Fetching
import LiveSound.Proofs.Compile.Footprint
import LiveSound.Proofs.Compile.Judging
import LiveSound.Proofs.Compile.Reading
import LiveSound.Proofs.Compile.Relaying
import LiveSound.Proofs.Compile.Replies
import LiveSound.Proofs.Compile.Requests
import LiveSound.Proofs.Compile.Resuming
import LiveSound.Proofs.Compile.Running
import LiveSound.Proofs.Compile.Serving
import LiveSound.Proofs.Compile.Sharing
import LiveSound.Proofs.Compile.Spellings
import LiveSound.Proofs.Compile.Sticking
import LiveSound.Proofs.Compile.Table
import LiveSound.Proofs.Compile.Traffic
import LiveSound.Proofs.Compile.Vanishing
import LiveSound.Proofs.Compile.Worker
import LiveSound.Proofs.Data.Frames
import LiveSound.Proofs.Data.Keyed
import LiveSound.Proofs.Data.Records
import LiveSound.Proofs.Event.Wire
import LiveSound.Proofs.Guest.Answers
import LiveSound.Proofs.Guest.Beginning
import LiveSound.Proofs.Guest.Buffers
import LiveSound.Proofs.Guest.Outputs
import LiveSound.Proofs.Guest.Posting
import LiveSound.Proofs.Guest.Writing
import LiveSound.Proofs.Guest.WrittenText
import LiveSound.Proofs.Json.Numbers
import LiveSound.Proofs.Json.Scaling
import LiveSound.Proofs.Json.Texts
import LiveSound.Proofs.Json.Values
import LiveSound.Proofs.Live.Course
import LiveSound.Proofs.Live.Independence
import LiveSound.Proofs.Live.Loading
import LiveSound.Proofs.Live.Tuning
import LiveSound.Proofs.Log.GuestOutput
import LiveSound.Proofs.Log.Quiet
import LiveSound.Proofs.Numeric.Decimal
import LiveSound.Proofs.Numeric.Exact
import LiveSound.Proofs.Numeric.Order
import LiveSound.Proofs.Numeric.Rounding
import LiveSound.Proofs.Numeric.Widening
import LiveSound.Proofs.Playback.Blocks
import LiveSound.Proofs.Playback.Buffers
import LiveSound.Proofs.Playback.Filling
import LiveSound.Proofs.Playback.Stream
import LiveSound.Proofs.Playback.Succession
import LiveSound.Proofs.Playback.Tenures
import LiveSound.Proofs.Playback.Timing
import LiveSound.Proofs.Processor.Conservation
import LiveSound.Proofs.Processor.Generations
import LiveSound.Proofs.Processor.Interleaving
import LiveSound.Proofs.Processor.Outcomes
import LiveSound.Proofs.Processor.Renumbering
import LiveSound.Proofs.Settings.RateFlags
import LiveSound.Proofs.Settings.RoundTrip
import LiveSound.Proofs.Settings.Sections
import LiveSound.Proofs.Text.Base64
import LiveSound.Proofs.Text.Lines
import LiveSound.Proofs.Text.Pattern
import LiveSound.Proofs.Text.Utf8
import LiveSound.Proofs.Toml.Documents
import LiveSound.Proofs.Toml.Statements
import LiveSound.Proofs.Toml.Texts
import LiveSound.Proofs.Toml.Values
import LiveSound.Proofs.Wasm.HostState
import LiveSound.Proofs.Wasm.Ranges
import LiveSound.Proofs.Watch.Records
import LiveSound.Proofs.Watch.Saves
import LiveSound.Proofs.World.Building
import LiveSound.Proofs.World.Courses
import LiveSound.Proofs.World.Dialog
import LiveSound.Proofs.World.Extensions
import LiveSound.Proofs.World.Files
import LiveSound.Proofs.World.Footprints
import LiveSound.Proofs.World.Moves
import LiveSound.Proofs.World.Paths
import LiveSound.Proofs.World.Processes
import LiveSound.Proofs.World.Routes
import LiveSound.Proofs.World.Runs
import LiveSound.Settings.Basic
import LiveSound.Settings.Read
import LiveSound.Settings.Store
import LiveSound.Settings.Write
import LiveSound.Text.Base64
import LiveSound.Text.Blank
import LiveSound.Text.Hex
import LiveSound.Text.Utf8
import LiveSound.Toml.Moment
import LiveSound.Toml.Reader
import LiveSound.Toml.Table
import LiveSound.Toml.Writer
import LiveSound.Wasm.Decode
import LiveSound.Wasm.Instance
import LiveSound.Wasm.Instruction
import LiveSound.Wasm.Machine
import LiveSound.Wasm.Memory
import LiveSound.Wasm.Numeric
import LiveSound.Wasm.Program
import LiveSound.Wasm.Trap
import LiveSound.Wasm.Validate
import LiveSound.Watch.Notice
import LiveSound.Watch.Watcher
import LiveSound.World.Files
import LiveSound.World.Host
import LiveSound.World.Model
import LiveSound.World.Path
import LiveSound.World.Scenario
import LiveSound.World.Script
