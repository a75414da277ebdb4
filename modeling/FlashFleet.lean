import FlashFleet.Backend.Scripted
import FlashFleet.Host.Rehearsal
import FlashFleet.Main
import FlashFleet.Proofs.Arguments
import FlashFleet.Proofs.Backends
import FlashFleet.Proofs.Configuration
import FlashFleet.Proofs.Crashes
import FlashFleet.Proofs.DryRun
import FlashFleet.Proofs.Identity
import FlashFleet.Proofs.Loading
import FlashFleet.Proofs.Narration
import FlashFleet.Proofs.Preparation
import FlashFleet.Proofs.Replay
import FlashFleet.Proofs.Reruns
import FlashFleet.Proofs.RoundTrip
import FlashFleet.Proofs.Turns
import FlashFleet.Proofs.Unwinding
import FlashFleet.Proofs.Repetition
import FlashFleet.Proofs.Numerals
import FlashFleet.Proofs.Blame
import FlashFleet.Proofs.Legibility
import FlashFleet.Proofs.SerialLists
