import SidVoice.Name
import SidVoice.Store.Session
import SidVoice.Proofs.Session.Effect
import SidVoice.Proofs.Session.Register
import SidVoice.Proofs.Session.Agreement
import SidVoice.Proofs.Store.Account
import SidVoice.Proofs.Session.Accounting
import SidVoice.Proofs.Session.Sharing
import SidVoice.Proofs.Pulldown.Clearing
import SidVoice.Proofs.Pulldown.Monotone
import SidVoice.Proofs.Session.Isolation
import SidVoice.Proofs.Table.Filling
import SidVoice.Proofs.Session.Mending
import SidVoice.Proofs.Pulldown.Threshold
import SidVoice.Proofs.Number.Exceptional
import SidVoice.Proofs.Pulldown.Equality
import SidVoice.Proofs.Pulldown.Saturation
import SidVoice.Proofs.Pulldown.Reciprocal
import SidVoice.Proofs.Pulldown.Totality
import SidVoice.Proofs.Pulldown.TopLine
import SidVoice.Proofs.Pulldown.Decay
import SidVoice.Proofs.Name.Spelling
import SidVoice.Proofs.Json.Decoding
import SidVoice.Proofs.Control.Operations
import SidVoice.Proofs.Table.Shapes
import SidVoice.Proofs.Session.BasicSamples
import SidVoice.Proofs.Pulldown.Completion
