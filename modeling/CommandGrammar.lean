import CommandGrammar.Files.Tree
import CommandGrammar.Main
import CommandGrammar.Parse.Equality
import CommandGrammar.Proofs.Closing
import CommandGrammar.Proofs.Compact
import CommandGrammar.Proofs.Delivery
import CommandGrammar.Proofs.Directives
import CommandGrammar.Proofs.Exchange
import CommandGrammar.Proofs.Export
import CommandGrammar.Proofs.Fallbacks
import CommandGrammar.Proofs.Fidelity
import CommandGrammar.Proofs.Namesakes
import CommandGrammar.Proofs.Naming
import CommandGrammar.Proofs.Offers
import CommandGrammar.Proofs.Overflow
import CommandGrammar.Proofs.Pending
import CommandGrammar.Proofs.Rendering
import CommandGrammar.Proofs.Requests
import CommandGrammar.Proofs.Rereading
import CommandGrammar.Proofs.Shadowing
import CommandGrammar.Proofs.Splitting
import CommandGrammar.Proofs.Trials
import CommandGrammar.Proofs.TypedLookup
import CommandGrammar.Proofs.Typing
import CommandGrammar.Proofs.Verdicts
