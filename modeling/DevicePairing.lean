import DevicePairing.Bench
import DevicePairing.Proofs.Channel.Authenticity
import DevicePairing.Proofs.Channel.Registration
import DevicePairing.Proofs.Channel.Rotation
import DevicePairing.Proofs.Channel.Session
import DevicePairing.Proofs.Pairing.Visits
import DevicePairing.Store.Snapshot
import DevicePairing.Stream.Packet.Stream
import DevicePairing.Proofs.Channel.Dispatch
import DevicePairing.Proofs.Channel.Upshot
import DevicePairing.Proofs.Channel.Constancy
import DevicePairing.Proofs.Channel.Discipline
import DevicePairing.Proofs.Stream.Packet.Assembly
import DevicePairing.Proofs.Stream.Packet.Sending
import DevicePairing.Proofs.Stream.Packet.Delivery
import DevicePairing.Proofs.Stream.Packet.Refusal
import DevicePairing.Proofs.Stream.LengthPrefix.Delivery
import DevicePairing.Proofs.Stream.LengthPrefix.Reading
import DevicePairing.Proofs.Stream.Packet.Intake
import DevicePairing.Proofs.Stream.Packet.Interleaving
import DevicePairing.Proofs.Stream.Packet.Provenance
import DevicePairing.Proofs.Channel.Resumption
import DevicePairing.Proofs.Channel.Introduction
import DevicePairing.Proofs.Channel.Challenge
import DevicePairing.Proofs.Channel.Confirmation
import DevicePairing.Proofs.KeyExchange.Concord
import DevicePairing.Proofs.KeyExchange.Guarded
import DevicePairing.Proofs.Channel.Consent
import DevicePairing.Proofs.Channel.Duration
import DevicePairing.Proofs.Channel.Traffic
import DevicePairing.Proofs.Store.SecretLength
import DevicePairing.Proofs.Channel.Teardown
import DevicePairing.Proofs.Stream.Packet.Early
import DevicePairing.Proofs.Pairing.Advertisement
import DevicePairing.Proofs.Store.RoundTrip
import DevicePairing.Proofs.Cbor.Extent
import DevicePairing.Proofs.Channel.Silence
import DevicePairing.Proofs.Stream.Packet.Table
import DevicePairing.Proofs.Stream.Packet.Width
import DevicePairing.Proofs.Stream.Packet.Rejection
import DevicePairing.Proofs.Stream.Packet.Rounds
import DevicePairing.Proofs.Stream.Packet.Repetition
import DevicePairing.Proofs.Stream.Packet.Totals
import DevicePairing.Proofs.Channel.Sequence
import DevicePairing.Proofs.Channel.Refusal
import DevicePairing.Proofs.Channel.CodeSealing
import DevicePairing.Proofs.KeyExchange.Sequencing
import DevicePairing.Proofs.Stream.Packet.Outbound
import DevicePairing.Proofs.Stream.Packet.Versions
import DevicePairing.Proofs.Crypto.Sealing
import DevicePairing.Proofs.Crypto.Token
import DevicePairing.Proofs.Registry
import DevicePairing.Proofs.Stream.Packet.WireForm
import DevicePairing.Proofs.Stream.Packet.Exhaustion
