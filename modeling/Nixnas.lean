import Nixnas.Logic.Machine
import Nixnas.Logic.Mounts
import Nixnas.Logic.AttrSet
import Nixnas.Logic.Effect
import Nixnas.Systemd.Cryptsetup
import Nixnas.Switch.Script
import Nixnas.Switch.InFlight
import Nixnas.Modules.Options
import Nixnas.Modules.Location
import Nixnas.Modules.Connect
import Nixnas.Rust.Text
import Nixnas.Tui.Build
import Nixnas.Tui.Secrets
import Nixnas.Tui.Flash
import Nixnas.Ui.Flash
import Nixnas.Ui.BuildFlash
import Nixnas.Ui.Confirmation
import Nixnas.Ui.FlashGate
import Nixnas.Ui.StorePass
import Nixnas.Ui.BuildFlashGate
import Nixnas.Tui.Report
import Nixnas.Ui.App
import Nixnas.Tui.SettingsFile
import Nixnas.Ui.Configure
import Nixnas.Rust.BufWriter
import Nixnas.Ui.Logging
import Nixnas.Ui.LogHistory
import Nixnas.Ui.LogPane
import Nixnas.Ui.Veil
import Nixnas.Ui.Hidden
import Nixnas.Ui.LogRecords
import Nixnas.Ui.Retention
import Nixnas.Ui.Process
import Nixnas.Ui.Quitting
import Nixnas.Rust.Io
import Nixnas.Logic.Total
import Nixnas.Tui.Device
import Nixnas.Tui.Handle
import Nixnas.Tui.FlashRun
import Nixnas.Tui.FlashSafety
import Nixnas.Ui.BackupHistory
import Nixnas.Tui.Verify
import Nixnas.Tui.Verdict
import Nixnas.Tui.VerifyRun
import Nixnas.Tui.GrowWrites
import Nixnas.Tui.Fidelity
import Nixnas.Modules.Path
import Nixnas.Modules.PersistEnforce
import Nixnas.Modules.PersistExact
import Nixnas.Modules.ZfsImport
import Nixnas.Rust.Stream
import Nixnas.Tui.SudoStream
import Nixnas.Tui.Settings
import Nixnas.Logic.FileTree
import Nixnas.Tui.Shred
import Nixnas.Tui.Escape
import Nixnas.Modules.RecoveryEscrow
import Nixnas.Switch.Lock
import Nixnas.Switch.Result
import Nixnas.Ui.Verify
import Nixnas.Ui.Session
import Nixnas.Ui.Workers
import Nixnas.Ui.Coherence
import Nixnas.Ui.BuildFlashFlow
import Nixnas.Rust.Lines
import Nixnas.Tui.LogStream
import Nixnas.Logic.Words
import Nixnas.Logic.ShellWords
import Nixnas.Systemd.Units
import Nixnas.Modules.Identity
import Nixnas.Systemd.Transaction
import Nixnas.Modules.UnlockSession
import Nixnas.Modules.UnlockReport
import Nixnas.Logic.Protocol
import Nixnas.Tui.FlashProtocol
import Nixnas.Ui.FlashGauge
import Nixnas.Rust.Parsing
import Nixnas.Tui.PartitionInfo
import Nixnas.Tui.Checklist
import Nixnas.Tui.BuildSteps
import Nixnas.Ui.Checklist
import Nixnas.Tui.ImageDir
import Nixnas.Ui.Passphrase
import Nixnas.Tui.SliceCursor
import Nixnas.Tui.Sinks
import Nixnas.Tui.GrowTimeline
import Nixnas.Tui.VerifySteps
import Nixnas.Tui.VerifyReport
import Nixnas.Ui.WorkerEnd
import Nixnas.Logic.Scrollback
import Nixnas.Logic.Sharing
import Nixnas.Tui.ClonedReader
import Nixnas.Nix.Lexer
import Nixnas.Nix.Words
import Nixnas.Nix.Grammar
import Nixnas.Tui.SizedExpr
import Nixnas.Ui.SizedBuild
import Nixnas.Logic.Calendar
import Nixnas.Logic.Numerals
import Nixnas.Ui.Timestamp
import Nixnas.Rust.Json
import Nixnas.Tui.Lsblk
import Nixnas.Ui.Targets
import Nixnas.Logic.Namespace
import Nixnas.Logic.Writeback
import Nixnas.Modules.Boots
import Nixnas.Modules.MachineId
import Nixnas.Switch.Detached
import Nixnas.Ui.WayOut
import Nixnas.Ui.Drawing
