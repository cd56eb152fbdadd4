import RenetCross.L2Machine.ClientReconfigure
import RenetCross.L2Machine.EgressAccounting
import RenetCross.L2Machine.EgressArithmetic
import RenetCross.L2Machine.EgressEnvelope
import RenetCross.L2Machine.EgressIsolation
import RenetCross.L2Machine.RttCalibration
import RenetCross.L2Machine.ServerAccounting
import RenetCross.L2Machine.ServerIdle
import RenetCross.L2Machine.ServerIsolation
import RenetCross.L2Machine.ServerOutageWindow
import RenetCross.L3Protocol.OfferClaims
import RenetCross.L3Protocol.ReplayFence
import RenetCross.L3Protocol.UserData
import RenetCross.L4App.FrontDoor
import RenetCross.L4App.MixedOwnership
import RenetCross.L4App.NativeClientRuns
import RenetCross.L4App.SessionExchange
import RenetCross.L4App.SharedHandle
import RenetCross.L4App.WebClientOrder
import RenetCross.L4App.WebConnect
import RenetCross.L4App.WebRtcChannels
import RenetCross.L4App.WebRtcDrain
import RenetCross.L4App.WebRtcTermination
