import MediaServer.Audio.MixMinus
import MediaServer.Audio.VoiceActivity
import MediaServer.Bfcp.GrantTracking
import MediaServer.Bfcp.RequestOwnership
import MediaServer.Bfcp.SharedDocAgreement
import MediaServer.Bfcp.TcpTransport
import MediaServer.Bfcp.TransportOwnership
import MediaServer.Bfcp.UdpTransactions
import MediaServer.Bfcp.WireRoundTrip
import MediaServer.Fec.Recovery
import MediaServer.Mosaic.Compaction
import MediaServer.Mosaic.Overlap
import MediaServer.Mosaic.Pinning
import MediaServer.Mosaic.Placement
import MediaServer.Rtcp.Bitrates
import MediaServer.Rtmp.ChunkSessions
import MediaServer.Rtmp.WriteLoop
import MediaServer.Rtp.BundleRouting
import MediaServer.Rtp.ExtendedNumbers
import MediaServer.Rtp.Nack
import MediaServer.Rtp.ReceiverReport
import MediaServer.Rtp.RembThrottler
import MediaServer.Rtp.Resynchronisation
import MediaServer.Rtp.Retransmission
import MediaServer.Speech.AsrSession
import MediaServer.Speech.Attribution
import MediaServer.Speech.CompSession
import MediaServer.Speech.SseParser
import MediaServer.Speech.StopSpeaking
import MediaServer.Text.MixerDisplay
import MediaServer.Text.MixerFlush
import MediaServer.Text.MuxSeparation
import MediaServer.Text.RedundantBounds
import MediaServer.Text.RedundantDelivery
import MediaServer.TransportFeedback.ArrivalTimes
import MediaServer.TransportFeedback.MinHistory
import MediaServer.TransportFeedback.Unwrapping
