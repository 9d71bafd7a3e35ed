import EmsGateway.Library.Exec
import EmsGateway.Library.Machine
import EmsGateway.Library.Directory
import EmsGateway.Library.Sequences
import EmsGateway.Spool
import EmsGateway.Collect.Interval
import EmsGateway.Collect.Window
import EmsGateway.Collect.Sweep
import EmsGateway.Collect.Retention
import EmsGateway.Collect.Serial
import EmsGateway.Connect.Client
import EmsGateway.Connect.Delivery
import EmsGateway.Connect.Pass
import EmsGateway.System.Gateway
import EmsGateway.System.Effect
import EmsGateway.System.Invariant
import EmsGateway.System.PassRun
import EmsGateway.System.Order
import EmsGateway.System.LostUpdate
import EmsGateway.System.Retention
import EmsGateway.System.Crash
import EmsGateway.System.Readiness
import EmsGateway.System.Reconnect
import EmsGateway.System.Cleanup
import EmsGateway.System.Framing
import EmsGateway.Firmware.LoRa
import EmsGateway.Firmware.MqttPublish
import EmsGateway.Firmware.Kalibrasi
import EmsGateway.Firmware.Blynk
import EmsGateway.Firmware.Baterai
import EmsGateway.Library.Buffer
import EmsGateway.Mqtt.Packet
import EmsGateway.Mqtt.PubSubClient
import EmsGateway.Mqtt.Sending
import EmsGateway.Mqtt.Streaming
import EmsGateway.Mqtt.Receiving
import EmsGateway.Mqtt.Delivery
import EmsGateway.Mqtt.Calls
import EmsGateway.Mqtt.Session
import EmsGateway.Mqtt.Unchanged
import EmsGateway.Mqtt.Safety
import EmsGateway.Mqtt.Mailbox
import EmsGateway.Mqtt.EndToEnd
import EmsGateway.Mqtt.KeepAlive
import EmsGateway.Library.Utf8
import EmsGateway.Firmware.KalibrasiClient
import EmsGateway.Portal.Arguments
import EmsGateway.Portal.Form
import EmsGateway.Portal.Request
import EmsGateway.Portal.Portal
