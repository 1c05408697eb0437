import CommandStation.Lib.Run
import CommandStation.Lib.FirstMatch
import CommandStation.Lib.Links
import CommandStation.Lib.Forest
import CommandStation.Lib.Program
import CommandStation.Lib.Preserves
import CommandStation.DCCQueue.Accessory
import CommandStation.DCCQueue.Packets
import CommandStation.DCCQueue.Throttle
import CommandStation.LocoSlot.Table
import CommandStation.DCCConsist.Spec
import CommandStation.DCCConsist.Steady
import CommandStation.DCC.Basic
import CommandStation.DCCDecoder.Basic
import CommandStation.WiThrottle.Basic
import CommandStation.DCC.Operations
import CommandStation.DCC.Spec
import CommandStation.DCC.Sound
import CommandStation.DCCDecoder.Spec
import CommandStation.DCCDecoder.RoundTrip
import CommandStation.DCC.Loop
import CommandStation.DCC.Run
import CommandStation.DCC.FullTable
import CommandStation.DCC.EstopLock
import CommandStation.DCC.Resume
import CommandStation.DCCDecoder.Echo
import CommandStation.DCCDecoder.Payload
import CommandStation.DCCWaveform.Basic
import CommandStation.DCCWaveform.Spec
import CommandStation.DCCWaveform.Frames
import CommandStation.DCCRMT.Basic
import CommandStation.DCCRMT.Spec
import CommandStation.Sniffer.Basic
import CommandStation.Sniffer.Edges
import CommandStation.DCCACK.Basic
import CommandStation.DCCACK.Programs
import CommandStation.DCCACK.Perform
import CommandStation.Lib.Stream
import CommandStation.DCCACK.Bench
import CommandStation.DCCACK.Registers
import CommandStation.DCCACK.Attempts
import CommandStation.DCCACK.Service
import CommandStation.DCCACK.LocoId
import CommandStation.DCCEXParser.KeywordHasher
import CommandStation.DCCACK.Requests
import CommandStation.DCCACK.Progress
import CommandStation.DCC.Extended
import CommandStation.DCC.Reminders
import CommandStation.Lib.Ring
import CommandStation.RingStream.Basic
import CommandStation.RingStream.Spec
import CommandStation.DCCEXParser.Basic
import CommandStation.DCCEXParser.Split
import CommandStation.DCCEXParser.Values
import CommandStation.DCCEXParser.Reading
import CommandStation.DCCEXParser.Bounds
import CommandStation.DCCEXParser.Quotes
import CommandStation.SerialManager.Basic
import CommandStation.Lib.Search
import CommandStation.Websockets.Basic
import CommandStation.WifiInboundHandler.Basic
import CommandStation.WifiInboundHandler.Frames
import CommandStation.CommandDistributor.Basic
import CommandStation.CommandDistributor.Framing
import CommandStation.CommandDistributor.Transports
import CommandStation.CommandDistributor.Numbers
import CommandStation.Lib.Absorb
import CommandStation.Lib.Sha1
import CommandStation.Lib.Base64
import CommandStation.Libsha1.Basic
import CommandStation.Libsha1.Spec
import CommandStation.Libsha1.Messages
import CommandStation.Websockets.Handshake
import CommandStation.DCC.Calls
import CommandStation.DCC.Targets
import CommandStation.DCC.TargetsSpec
import CommandStation.EXRAIL2.Basic
import CommandStation.EXRAIL2.Effects
import CommandStation.EXRAIL2.Flags
import CommandStation.EXRAIL2.Nesting
import CommandStation.EXRAIL2.Resuming
import CommandStation.EXRAIL2.Sections
import CommandStation.TrackManager.Join
import CommandStation.Lib.ByteStore
import CommandStation.EEStore.Layout
import CommandStation.EEStore.Basic
import CommandStation.EEStore.Storing
import CommandStation.EEStore.Restart
import CommandStation.DCC.Momentum
import CommandStation.DCC.Ramp
import CommandStation.Sensors.Basic
import CommandStation.Sensors.Cycle
import CommandStation.Railcom.Basic
import CommandStation.Railcom.Replies
import CommandStation.Overload.Basic
import CommandStation.Overload.Timing
import CommandStation.Overload.Inrush
import CommandStation.I2CManager.Basic
import CommandStation.I2CManager.Queue
import CommandStation.I2CManager.Retries
import CommandStation.I2CManager.Avr
import CommandStation.I2CManager.Transfer
import CommandStation.I2CManager.Attempts
import CommandStation.I2CManager.Buffers
import CommandStation.DCC.Recipients
import CommandStation.DCCEXParser.Cabs
import CommandStation.DCC.Consists
import CommandStation.EXRAIL2.Blinking
import CommandStation.EXRAIL2.Calls
import CommandStation.DCCEXParser.Callbacks
import CommandStation.Websockets.Unmask
import CommandStation.WiThrottle.Speeds
import CommandStation.Lib.Local
import CommandStation.WiThrottle.Lines
import CommandStation.WiThrottle.Parse
import CommandStation.WiThrottle.Held
import CommandStation.WiThrottle.Accesses
import CommandStation.EXRAIL2.ComandFilter
import CommandStation.EXRAIL2.Operands
import CommandStation.Railcom.Records
import CommandStation.Lib.Debounce
import CommandStation.Sensors.Reports
import CommandStation.TrackManager.Fitted
import CommandStation.EXRAIL2.Fields
import CommandStation.DCCACK.CheckAck
import CommandStation.DCCQueue.Linked
import CommandStation.DCCQueue.Refines
import CommandStation.IODevice.Basic
import CommandStation.IODevice.Command
import CommandStation.IODevice.Overlap
import CommandStation.Lib.RoundRobin
import CommandStation.IODevice.Loop
import CommandStation.PCA9685.Animation
import CommandStation.RingStream.Space
import CommandStation.DCC.Accessories
import CommandStation.DCC.FrontEnds
import CommandStation.ADCee.Basic
import CommandStation.ADCee.Samples
import CommandStation.ADCee.Round
import CommandStation.IODevice.GPIOBase
import CommandStation.SerialUsbLog.Page
import CommandStation.EXRAIL2.Sensor
import CommandStation.IODevice.EncoderThrottle
import CommandStation.Sensors.Group
import CommandStation.LCN.Basic
