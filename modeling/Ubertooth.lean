import Ubertooth.Foundations.Runs
import Ubertooth.Foundations.Countdown
import Ubertooth.Foundations.WrappingClock
import Ubertooth.Foundations.ShiftRegister
import Ubertooth.Interface
import Ubertooth.Firmware.BluetoothLe
import Ubertooth.Firmware.Bluetooth
import Ubertooth.Firmware.State
import Ubertooth.Firmware.Clock
import Ubertooth.Firmware.UsbQueue
import Ubertooth.Firmware.Ego
import Ubertooth.Firmware.Rxtx
import Ubertooth.Firmware.Whitening
import Ubertooth.LowEnergy.Crc
import Ubertooth.LowEnergy.Link
import Ubertooth.LowEnergy.CrcInit
import Ubertooth.LowEnergy.LockStep
import Ubertooth.LowEnergy.Update
import Ubertooth.LowEnergy.Timer
import Ubertooth.LowEnergy.HopIncrement
import Ubertooth.LowEnergy.HopInterval
import Ubertooth.LowEnergy.Promiscuous
import Ubertooth.LowEnergy.Whitening
import Ubertooth.Foundations.Ring
import Ubertooth.Usb.Queue
import Ubertooth.Usb.Poll
import Ubertooth.Host.Ringbuffer
import Ubertooth.Host.Stream
import Ubertooth.Host.Delivery
import Ubertooth.Host.Callback
import Ubertooth.Timing.Elapsed
import Ubertooth.Usb.PacketType
import Ubertooth.Capture.DoubleBuffer
import Ubertooth.Firmware.Requests
import Ubertooth.Foundations.CyclicWalk
import Ubertooth.Hopping.Search
import Ubertooth.Hopping.Selection
import Ubertooth.Firmware.Receive
import Ubertooth.Capture.Subscripts
import Ubertooth.Firmware.Session
import Ubertooth.LowEnergy.Filter
import Ubertooth.LowEnergy.Target
import Ubertooth.LowEnergy.GivenAddress
import Ubertooth.LowEnergy.Advertising
import Ubertooth.LowEnergy.ShortPackets
import Ubertooth.Firmware.Promisc
import Ubertooth.Foundations.SlidingWindow
import Ubertooth.Foundations.Tally
import Ubertooth.LowEnergy.Candidates
import Ubertooth.Bootloader.Iap
import Ubertooth.Bootloader.Dfu
import Ubertooth.Bootloader.Protection
import Ubertooth.Bootloader.LpcRom
import Ubertooth.Bootloader.Acknowledge
import Ubertooth.Foundations.Stdio
import Ubertooth.Host.UbertoothDfu
import Ubertooth.Host.Suffix
import Ubertooth.Host.Outcome
import Ubertooth.Bootloader.Programming
import Ubertooth.Bootloader.FirmwareUpdate
import Ubertooth.Host.Sniffing
import Ubertooth.Timing.AccessCode
import Ubertooth.Timing.Timestamps
import Ubertooth.Host.Symbols
import Ubertooth.Host.Control
import Ubertooth.Timing.Calibration
import Ubertooth.Modes.EgoMode
import Ubertooth.Capture.Spectrum
import Ubertooth.Firmware.Modes
import Ubertooth.Modes.Idle
import Ubertooth.Host.Ownership
import Ubertooth.Host.Waiting
import Ubertooth.LowEnergy.Burst
import Ubertooth.Host.Damage
import Ubertooth.Hopping.Segment
import Ubertooth.Hopping.ChannelBank
import Ubertooth.Hopping.Sweep
import Ubertooth.Host.Chronology
import Ubertooth.Capture.Rssi
import Ubertooth.Hopping.Dwell
import Ubertooth.Capture.Squelch
import Ubertooth.Foundations.LfuCache
import Ubertooth.LowEnergy.AddressCache
import Ubertooth.Firmware.Transmit
import Ubertooth.LowEnergy.EmptyPdu
import Ubertooth.LowEnergy.Transmit
import Ubertooth.Bootloader.StatusAgreement
import Ubertooth.Host.DeviceGone
import Ubertooth.Host.Signal
import Ubertooth.Modes.EgoFollow
import Ubertooth.Firmware.SyncLoop
import Ubertooth.LowEnergy.DmaErrors
import Ubertooth.LowEnergy.ChannelRequest
import Ubertooth.Firmware.Spi
import Ubertooth.Foundations.SerialWord
import Ubertooth.Radio.Transactions
import Ubertooth.Foundations.Loop
import Ubertooth.Host.Arglist
import Ubertooth.Host.ListGrammar
import Ubertooth.Host.ListScan
import Ubertooth.Host.ListOfInts
import Ubertooth.Host.RegisterLists
import Ubertooth.Foundations.Recency
import Ubertooth.Host.Afh
import Ubertooth.Host.RecentChannels
import Ubertooth.Host.ChannelOctet
import Ubertooth.Host.Version
import Ubertooth.Host.DeviceSelection
import Ubertooth.Commands
import Ubertooth.Firmware.BulkIn
import Ubertooth.Firmware.ControlPipe
import Ubertooth.Firmware.StandardRequests
import Ubertooth.Firmware.UbertoothUsb
import Ubertooth.Foundations.Packets
import Ubertooth.Usb.Configuration
import Ubertooth.Usb.Confinement
import Ubertooth.Usb.Pipeline
import Ubertooth.Usb.Settings
import Ubertooth.Firmware.Rangetest
import Ubertooth.Radio.RangeTest
import Ubertooth.Usb.HostCalls
import Ubertooth.Usb.Polling
import Ubertooth.Capture.Dump
