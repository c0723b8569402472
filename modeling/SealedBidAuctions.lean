import SealedBidAuctions.Core.Rust
import SealedBidAuctions.Core.BigInt
import SealedBidAuctions.Hog.Basic
import SealedBidAuctions.Hog.Signed
import SealedBidAuctions.Hog.Unsigned
import SealedBidAuctions.Hog.Laws
import SealedBidAuctions.Hog.Quotient
import SealedBidAuctions.Hog.NormalForm
import SealedBidAuctions.Hog.Simulation
import SealedBidAuctions.LazyTc.Scheme
import SealedBidAuctions.LazyTc.Transparent
import SealedBidAuctions.LazyTc.Correctness
import SealedBidAuctions.LazyTc.Totality
import SealedBidAuctions.Solidity.Encode
import SealedBidAuctions.Solidity.Templates
import SealedBidAuctions.Solidity.Bulletproofs
