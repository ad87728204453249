import RoundChange.Load
import RoundChange.Logging
import RoundChange.Outline
import RoundChange.Schedule
import RoundChange.Proofs.Counting
import RoundChange.Proofs.Minting
import RoundChange.Proofs.Steps
import RoundChange.Proofs.Validators
import RoundChange.Proofs.History
import RoundChange.Proofs.Admission
import RoundChange.Proofs.Reports
import RoundChange.Proofs.Overlap
import RoundChange.Proofs.Certificates
import RoundChange.Proofs.Handouts
import RoundChange.Proofs.Readers
import RoundChange.Proofs.BinaryRoundTrip
import RoundChange.Proofs.Fitting
import RoundChange.Proofs.HexSpelling
import RoundChange.Proofs.JsonRecord
import RoundChange.Proofs.JsonRoundTrip
import RoundChange.Proofs.Replay
import RoundChange.Proofs.Curve.Group
import RoundChange.Proofs.Curve.Prime
import RoundChange.Proofs.Curve.Coordinates
import RoundChange.Proofs.Curve.Sums
import RoundChange.Proofs.Curve.Encoding
import RoundChange.Proofs.Curve.Signatures
import RoundChange.Proofs.Curve.Order
import RoundChange.Proofs.Honest
import RoundChange.Proofs.Minority
import RoundChange.Proofs.Arrival
import RoundChange.Proofs.Independence
import RoundChange.Proofs.SigningBytes
import RoundChange.Proofs.Places
import RoundChange.Proofs.BinarySpelling
import RoundChange.Proofs.Decoding
import RoundChange.Proofs.LatestPrepared
import RoundChange.Proofs.Configuration
import RoundChange.Proofs.Construction
import RoundChange.Proofs.Separation
import RoundChange.Proofs.Transport
import RoundChange.Proofs.Listing
import RoundChange.Proofs.AddressText
import RoundChange.Proofs.QuorumSize
