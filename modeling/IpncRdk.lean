import IpncRdk.Lib.Run
import IpncRdk.OsaShm.FifoTheorems
import IpncRdk.SysCfg.Frame
import IpncRdk.AirkissThr.StopRequest
import IpncRdk.OsaBuf.Conservation
import IpncRdk.OsaMbx.LifeCycle
import IpncRdk.OsaPipe.Pipe
import IpncRdk.TimerThr.LockDiscipline
import IpncRdk.TimerThr.Cursor
import IpncRdk.HttpThread.Parts
import IpncRdk.NetLink.LinkCheck
import IpncRdk.SpiLcd.Probe
import IpncRdk.Display.Bounds
import IpncRdk.Display.Glyphs
import IpncRdk.OsaEvent.Retrieve
import IpncRdk.OsaEvent.Consume
import IpncRdk.OsaEvent.WakeUp
import IpncRdk.KeyChkThr.Agreement
import IpncRdk.KeyChkThr.PowerOff
import IpncRdk.SysCtrl.OutputSafety
import IpncRdk.SysCtrl.RecordKept
import IpncRdk.SpiLcd.Panel
import IpncRdk.SysCfg.Extract
import IpncRdk.SysCfg.LineTable
import IpncRdk.SysCfg.Termination
import IpncRdk.TimerThr.Timing
import IpncRdk.SysCtrl.BoundedCheck
import IpncRdk.SysCtrl.StoredDate
import IpncRdk.HttpThread.AllOrNothing
import IpncRdk.HttpThread.SafeReply
import IpncRdk.SysCfg.Lookup
import IpncRdk.SysCfg.IntValue
import IpncRdk.AirkissThr.Connect
import IpncRdk.AirkissThr.GetIp
import IpncRdk.UiDisplayThr.Icons
import IpncRdk.PingHost.IsLive
import IpncRdk.OsaEvent.Deadline
import IpncRdk.OsaQue.Observers
import IpncRdk.OsaPipe.Create
import IpncRdk.OsaFile.RoundTrip
import IpncRdk.OsaShm.SegmentTheorems
import IpncRdk.Lcd12864.Region
import IpncRdk.Lcd12864.Line
import IpncRdk.Lcd12864.LinePath
import IpncRdk.Lcd12864.ShowString
import IpncRdk.Lcd12864.StringLayout
import IpncRdk.OsaPrf.Statistics
import IpncRdk.Lcd12864.Picture
import IpncRdk.Jlx12864G.GramUp
import IpncRdk.CarmeraV4l2.Ownership
import IpncRdk.FileMng.Lossless
import IpncRdk.FileMng.WriteLog
import IpncRdk.FileMng.ProcFile
import IpncRdk.Ftp.Download
import IpncRdk.ApClient.SurveyRows
import IpncRdk.ApClient.FindAp
import IpncRdk.CJson.Entity
import IpncRdk.CJson.Minify
import IpncRdk.CJson.Forest
import IpncRdk.CJson.Print
import IpncRdk.CJson.PrintBuffered
import IpncRdk.CJson.RoundTrip
import IpncRdk.CJson.Client
