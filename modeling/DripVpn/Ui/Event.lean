import DripVpn.Background.TrafficMonitor

/-!
# Events sent to Flutter

`VpnStatus` is the status shown by the Flutter side, `Event` the sealed class of the messages
that `Bridge.sendToFlutter` sends there. An event is an object with a `name` and a `data` field;
the constructor parameters of its subclasses are `@Transient`.
-/

/-- `VpnStatus`. -/
inductive VpnStatus where
  | connected
  | connecting
  | switching
  | stopped
  | stopping
  | idle
  deriving DecidableEq, Repr

/-- The string a status is sent as. -/
def VpnStatus.state : VpnStatus → String
  | .connected => "connected"
  | .connecting => "connecting"
  | .switching => "switching"
  | .stopped => "stopped"
  | .stopping => "stopping"
  | .idle => "idle"

/-- `Event`. -/
inductive Event where
  | vpnStateEvent (vpnStatus : VpnStatus)
  | profileEvent (profile : Option Profile)
  | speedEvent (trafficStats : TrafficStats)
  deriving DecidableEq

/-- The values of the `data` field of an event. -/
inductive EventData where
  | state (state : String)
  | profile (profile : Profile)
  | trafficStats (trafficStats : TrafficStats)
  deriving DecidableEq

namespace Event

/-- The `name` field. -/
def name : Event → String
  | vpnStateEvent _ => "vpn_state_event"
  | profileEvent _ => "profile_event"
  | speedEvent _ => "speed_event"

/-- The `data` field, `none` for `null`. -/
def data : Event → Option EventData
  | vpnStateEvent vpnStatus => some (.state vpnStatus.state)
  | profileEvent profile => profile.map .profile
  | speedEvent trafficStats => some (.trafficStats trafficStats)

end Event
