import AllInOne.NibpOverload
import AllInOne.NibpPump
import AllInOne.NibpVent
import AllInOne.StmLink
import AllInOne.RespAlarm
import AllInOne.UartRings
import AllInOne.Loops
import AllInOne.UartTermination
import AllInOne.UartBounds
import AllInOne.UartFrames
import AllInOne.TwiDelivery
import AllInOne.EepromStore
import AllInOne.NibpFeatures
import AllInOne.NibpStale
import AllInOne.StmReads
import AllInOne.StmImage
import AllInOne.MessageEffects
import AllInOne.StmRegion
import AllInOne.PvcList
import AllInOne.EcgRhythm
import AllInOne.RespApnea
import AllInOne.NibpDeflate
import AllInOne.NibpInflate
import AllInOne.EcgAsystole
import AllInOne.EcgRate
import AllInOne.EcgBounds
import AllInOne.NibpOrder
import AllInOne.UartResync
import AllInOne.UartTransmit
import AllInOne.SampleRings
import AllInOne.PatientCoherence
import AllInOne.NibpRestore
import AllInOne.NibpRest
import AllInOne.TickDelay
import AllInOne.CountDown
import AllInOne.Cells
import AllInOne.NibpQueue
import AllInOne.NibpFalling
import AllInOne.StmCodec
import AllInOne.IapBuffers
import AllInOne.NibpDivisions
import AllInOne.NibpConversion
import AllInOne.NibpInverse
import AllInOne.Multiplexed
import AllInOne.AdcDemux
import AllInOne.AdcProvenance
import AllInOne.UploadMask
import AllInOne.RespRate
import AllInOne.NibpWindow
import AllInOne.NibpExtrema
import AllInOne.NibpEnvelope
import AllInOne.NibpPulses
import AllInOne.TriangleFlanks
import AllInOne.RespWeights
import AllInOne.RespWindow
import AllInOne.Descending
import AllInOne.Temperature
import AllInOne.UploadRate
import AllInOne.EcgStVolt
import AllInOne.CyclicCode
import AllInOne.Crc8
import AllInOne.UartCorruption
import AllInOne.Ranks
import AllInOne.MedianN
import AllInOne.Segments
import AllInOne.NibpAlgorithm
import AllInOne.NibpSegments
import AllInOne.NibpAnalysis
import AllInOne.NibpRestart
import AllInOne.Biquad
import AllInOne.DigitalFilter
import AllInOne.EcgPreProcess
import AllInOne.RespSwing
import AllInOne.EcgSearch
import AllInOne.EcgDetector
import AllInOne.EcgRefinement
import AllInOne.EcgIntegral
import AllInOne.StmSelfCheck
import AllInOne.StmElectrodes
import AllInOne.EcgUpload
import AllInOne.EcgFreshness
import AllInOne.EepromImage
import AllInOne.Preempted
import AllInOne.Hct595
import AllInOne.UartPreempted
import AllInOne.PreemptedRing
import AllInOne.SamplePops
import AllInOne.NibpPulseRate
