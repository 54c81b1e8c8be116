import AmqpAsio.Machine
import AmqpAsio.Transceiver.StopFinal
import AmqpAsio.Transceiver.ExitCallback
import AmqpAsio.Transceiver.RunIsolation
import AmqpAsio.Transceiver.ChannelFailure
import AmqpAsio.Transceiver.Ordering
import AmqpAsio.Transceiver.Progress
import AmqpAsio.Transceiver.Cleanup
import AmqpAsio.Transceiver.FirstCause
import AmqpAsio.Transceiver.Settlement
import AmqpAsio.Broker.Ownership
import AmqpAsio.Broker.Bindings
import AmqpAsio.Broker.Sharing
import AmqpAsio.ConnectionHandler.ShutdownCallback
import AmqpAsio.ConnectionHandler.Diagram
import AmqpAsio.ConnectionHandler.Sentinel
import AmqpAsio.ConnectionHandler.Output
import AmqpAsio.ConnectionHandler.Delivery
import AmqpAsio.ConnectionHandler.Termination
import AmqpAsio.ConnectionHandler.Quiescence
import AmqpAsio.ConnectionHandler.Input
import AmqpAsio.AutoReconnect.Wrapping
import AmqpAsio.AutoReconnect.Persistence
import AmqpAsio.AutoReconnect.Callbacks
import AmqpAsio.AutoReconnect.Cycles
import AmqpAsio.AutoReconnect.FirstConnection
import AmqpAsio.Connector.Sessions
import AmqpAsio.Connector.ExitCodes
import AmqpAsio.Connector.Completion
import AmqpAsio.Connector.Returns
import AmqpAsio.Connector.ConnectionLoss
import AmqpAsio.Connector.Finality
import AmqpAsio.Connector.Nesting
import AmqpAsio.Connector.Attempts
import AmqpAsio.Connector.LiveConnection
import AmqpAsio.JsonConverter
import AmqpAsio.AutoReconnect.Recovery
