import UpsFirmware.Lib.MsgQueue
import UpsFirmware.Lib.Runs
import UpsFirmware.Lib.Stuffing
import UpsFirmware.Lib.QueueRuns
import UpsFirmware.Lib.CString
import UpsFirmware.Lib.Ownership
import UpsFirmware.Lib.Accumulators
import UpsFirmware.Lib.Rounding
import UpsFirmware.Lib.Streaks
import UpsFirmware.Lib.Mirror
import UpsFirmware.Lib.Wire
import UpsFirmware.Lib.Numerals
import UpsFirmware.Lib.BoundedBuffer
import UpsFirmware.Lib.Tokens
import UpsFirmware.Common.Msg
import UpsFirmware.Common.Cobs
import UpsFirmware.Link.SerialCb
import UpsFirmware.Link.Bounds
import UpsFirmware.Link.Delivery
import UpsFirmware.Link.Discipline
import UpsFirmware.Link.Transfer
import UpsFirmware.Rp2040.Effects
import UpsFirmware.Rp2040.Regulators
import UpsFirmware.Rp2040.PidRuns
import UpsFirmware.Rp2040.Adc
import UpsFirmware.Rp2040.HwErrors
import UpsFirmware.Rp2040.Buckboost
import UpsFirmware.Rp2040.Modes
import UpsFirmware.Rp2040.Faults
import UpsFirmware.Rp2040.FaultCount
import UpsFirmware.Rp2040.PowerDown
import UpsFirmware.Rp2040.FailedReads
import UpsFirmware.Rp2040.Duties
import UpsFirmware.Rp2040.Charging
import UpsFirmware.Rp2040.Console
import UpsFirmware.Stm32.Bq76920
import UpsFirmware.Stm32.Protection
import UpsFirmware.Stm32.Balancing
import UpsFirmware.Stm32.TornReads
import UpsFirmware.Stm32.Bms
import UpsFirmware.Stm32.Printf
import UpsFirmware.Stm32.PrintfText
import UpsFirmware.Stm32.PrintfNumbers
import UpsFirmware.Stm32.PrintfHash
import UpsFirmware.Stm32.PrintfFormats
import UpsFirmware.Stm32.Log
import UpsFirmware.Esp32.Request
import UpsFirmware.Esp32.Listener
import UpsFirmware.Esp32.Draining
import UpsFirmware.Esp32.Sendall
import UpsFirmware.Esp32.Response
import UpsFirmware.Esp32.Server
import UpsFirmware.Esp32.PowerButton
import UpsFirmware.Esp32.Screen
import UpsFirmware.Esp32.Pages
import UpsFirmware.Esp32.Framebuffer
import UpsFirmware.System.Requests
import UpsFirmware.System.Shutdown
import UpsFirmware.System.Telemetry
