import UsbDvbs2.Concurrency.Program
import UsbDvbs2.Concurrency.Execution
import UsbDvbs2.Concurrency.Threads
import UsbDvbs2.Concurrency.Walk
import UsbDvbs2.Concurrency.Ledger
import UsbDvbs2.Bytes.Entries
import UsbDvbs2.Bytes.Tables
import UsbDvbs2.Bytes.Pieces
import UsbDvbs2.Bytes.Crc
import UsbDvbs2.Bytes.Fitting
import UsbDvbs2.Calendar.Gregorian
import UsbDvbs2.Platform.Event
import UsbDvbs2.Platform.ThreadRecord
import UsbDvbs2.Platform.Utc
import UsbDvbs2.Mpeg.Sections
import UsbDvbs2.Mpeg.ProgramMap
import UsbDvbs2.Engine.Receiver
import UsbDvbs2.Engine.Avl62x1
import UsbDvbs2.Engine.Rda5815m
import UsbDvbs2.Engine.Tune
import UsbDvbs2.Engine.LnbSupply
import UsbDvbs2.Engine.LnbFlag
import UsbDvbs2.Engine.TunePower
import UsbDvbs2.Engine.CommandMonitor
import UsbDvbs2.Engine.LastTune
import UsbDvbs2.Engine.AfterStop
import UsbDvbs2.Engine.AfterClose
import UsbDvbs2.Camd.Client
import UsbDvbs2.Camd.Worker
import UsbDvbs2.Camd.KeyOrigin
import UsbDvbs2.Camd.Protocols
import UsbDvbs2.Camd.Answers
import UsbDvbs2.Stream.Descrambler
import UsbDvbs2.Stream.KeyRefresh
import UsbDvbs2.Stream.Psi
import UsbDvbs2.Stream.Reader
import UsbDvbs2.Stream.Zapping
import UsbDvbs2.Stream.ChannelKeys
import UsbDvbs2.Stream.Provenance
import UsbDvbs2.Stream.ChannelMix
import UsbDvbs2.Stream.CaHandover
import UsbDvbs2.Stream.Lending
import UsbDvbs2.Stream.Sections
import UsbDvbs2.Stream.Metadata
import UsbDvbs2.Stream.SectionPackets
import UsbDvbs2.Stream.PmtRewrite
import UsbDvbs2.Stream.ExtraSlots
import UsbDvbs2.Stream.ExtraBytes
import UsbDvbs2.Stream.Outlet
import UsbDvbs2.Stream.Intake
import UsbDvbs2.Stream.Losses
import UsbDvbs2.Stream.PacketLoop
import UsbDvbs2.Stream.ReadAlignment
import UsbDvbs2.Stream.ForwardedPids
import UsbDvbs2.Stream.PatMapping
import UsbDvbs2.Text.DvbText
import UsbDvbs2.Text.Utf8
import UsbDvbs2.Text.Glyphs
import UsbDvbs2.Text.Truncation
import UsbDvbs2.Text.Direct
import UsbDvbs2.Store.Probing
import UsbDvbs2.Stream.EventTable
import UsbDvbs2.Stream.EventText
import UsbDvbs2.Stream.EventClock
import UsbDvbs2.Stream.EventRoundTrip
import UsbDvbs2.Stream.NowNext
import UsbDvbs2.Stream.DirectNames
import UsbDvbs2.Stream.NameAgreement
import UsbDvbs2.Stream.TitleAgreement
import UsbDvbs2.Stream.EventGuide
import UsbDvbs2.Bridge.It9300
import UsbDvbs2.Scan.Reassembly
import UsbDvbs2.Scan.PmtParse
import UsbDvbs2.Text.Lines
import UsbDvbs2.Text.Decimal
import UsbDvbs2.Text.Fields
import UsbDvbs2.Daemon.CommandLines
import UsbDvbs2.Camd.DesKey
import UsbDvbs2.Sdk.CamSettings
import UsbDvbs2.Sdk.StatusReply
import UsbDvbs2.Sdk.EventPipe
import UsbDvbs2.Crypto.Modes
import UsbDvbs2.Crypto.Des
import UsbDvbs2.Crypto.Aes
import UsbDvbs2.Camd.Course
import UsbDvbs2.Camd.PublishedPid
import UsbDvbs2.Camd.Rotation
import UsbDvbs2.Camd.Repeats
import UsbDvbs2.Camd.ShownState
import UsbDvbs2.Camd.Socket
import UsbDvbs2.Camd.NewcamdWire
import UsbDvbs2.Camd.Cs378xWire
import UsbDvbs2.Camd.Boundaries
import UsbDvbs2.Stream.PmtOutputs
import UsbDvbs2.Runs.Gathering
import UsbDvbs2.Scan.ScanState
import UsbDvbs2.Scan.SectionOrder
import UsbDvbs2.Scan.Agreement
import UsbDvbs2.Scan.PsiWatch
import UsbDvbs2.Bytes.Memory
import UsbDvbs2.Bytes.Queued
import UsbDvbs2.Bytes.Checked
import UsbDvbs2.Store.Circular
import UsbDvbs2.Runs.Adjacent
import UsbDvbs2.Runs.Prefixes
import UsbDvbs2.Crypto.InPlace
import UsbDvbs2.Text.DecodeBounds
import UsbDvbs2.Usb.StreamRing
import UsbDvbs2.Usb.StreamTransfers
import UsbDvbs2.Usb.StreamOrder
import UsbDvbs2.Usb.StreamShutdown
import UsbDvbs2.Stream.SentEvents
import UsbDvbs2.Stream.VideoStart
import UsbDvbs2.Stream.Continuity
import UsbDvbs2.Stream.BatchDescrambling
import UsbDvbs2.Stream.PsiBounds
import UsbDvbs2.Stream.EventBounds
import UsbDvbs2.Stream.PmtBounds
import UsbDvbs2.Scan.NetworkTable
import UsbDvbs2.Scan.ContextTable
import UsbDvbs2.Scan.TableBounds
import UsbDvbs2.Bytes.Buffers
import UsbDvbs2.Text.Hexadecimal
import UsbDvbs2.Camd.DesKeyGrammar
import UsbDvbs2.Camd.KeySpread
import UsbDvbs2.Concurrency.Answers
import UsbDvbs2.Bridge.Calls
import UsbDvbs2.Bridge.FirmwareDownload
import UsbDvbs2.Engine.RegisterBursts
import UsbDvbs2.Engine.PatchScript
import UsbDvbs2.Engine.PatchBounds
import UsbDvbs2.Sdk.WideText
import UsbDvbs2.Crypto.BlockHash
import UsbDvbs2.Crypto.Md5
import UsbDvbs2.Crypto.Fips180
import UsbDvbs2.Crypto.Sha256
import UsbDvbs2.Stream.DatagramWriter
import UsbDvbs2.Scan.SentSections
import UsbDvbs2.Bytes.Cells
import UsbDvbs2.Bytes.LittleEndian
import UsbDvbs2.Bytes.Exchange
import UsbDvbs2.Bytes.Slots
import UsbDvbs2.Bytes.Lanes
import UsbDvbs2.Crypto.Rounds
import UsbDvbs2.Crypto.BackChain
import UsbDvbs2.Csa.BlockCipher
import UsbDvbs2.Csa.StreamCipher
import UsbDvbs2.Csa.KeyTables
import UsbDvbs2.Csa.KeySchedule
import UsbDvbs2.Csa.Algorithm
import UsbDvbs2.Csa.Word128
import UsbDvbs2.Csa.SlicedStream
import UsbDvbs2.Csa.StreamLanes
import UsbDvbs2.Csa.Transpose
import UsbDvbs2.Csa.SlicedBlock
import UsbDvbs2.Csa.Batch
import UsbDvbs2.Csa.ScrambledRun
import UsbDvbs2.Runs.Conversation
import UsbDvbs2.Camd.Dialogue
import UsbDvbs2.Camd.NewcamdLogin
import UsbDvbs2.Camd.NewcamdSession
import UsbDvbs2.Camd.Cs378xSession
