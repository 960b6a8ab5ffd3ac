import BodySpec.Environment
import BodySpec.Inspect
import BodySpec.Proofs.Addresses
import BodySpec.Proofs.BlankBytes
import BodySpec.Proofs.Channels
import BodySpec.Proofs.Classes
import BodySpec.Proofs.Contexts
import BodySpec.Proofs.Days
import BodySpec.Proofs.Edits
import BodySpec.Proofs.Explanation
import BodySpec.Proofs.FieldOrder
import BodySpec.Proofs.FixedShapes
import BodySpec.Proofs.Insertion
import BodySpec.Proofs.JoinedTexts
import BodySpec.Proofs.LengthBounds
import BodySpec.Proofs.LetterCase
import BodySpec.Proofs.Nesting
import BodySpec.Proofs.PlainNumbers
import BodySpec.Proofs.Reading
import BodySpec.Proofs.RequestIds
import BodySpec.Proofs.RuleData
import BodySpec.Proofs.Scanning
import BodySpec.Proofs.SilentCalls
import BodySpec.Proofs.Spelling
import BodySpec.Proofs.Strictness
import BodySpec.Proofs.TextLengths
import BodySpec.Proofs.Undeclared
