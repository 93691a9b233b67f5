import Clamav.RtfScan.Basic
import Clamav.RtfScan.HexDecode
import Clamav.RtfScan.Object
import Clamav.RtfScan.ObjectRun
import Clamav.RtfScan.Record
import Clamav.RtfScan.Stack
import Clamav.RtfScan.Lexer
import Clamav.RtfScan.Gating
import Clamav.RtfScan.Driver
import Clamav.RtfScan.Safety
import Clamav.RtfScan.Release
import Clamav.RtfScan.Extract
import Clamav.RtfScan.Heap
import Clamav.RtfScan.Benign
import Clamav.RtfScan.Param
import Clamav.RtfScan.Errors
import Clamav.RtfScan.Cut
import Clamav.RtfScan.TextCut
import Clamav.RtfScan.ControlWord
import Clamav.RtfScan.ViewCut
import Clamav.CertStore
