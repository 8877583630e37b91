import Menus.Main
import Menus.Menu.Shortcuts
import Menus.Registry.Check
import Menus.Proofs.Assembly
import Menus.Proofs.Submenus
import Menus.Proofs.Generated
import Menus.Proofs.Separators
import Menus.Proofs.Availability
import Menus.Proofs.Concrete
import Menus.Proofs.Descent
import Menus.Proofs.Nesting
import Menus.Proofs.Guard
import Menus.Proofs.Partition
import Menus.Proofs.Keywords
import Menus.Proofs.Segments
import Menus.Proofs.Grammar
import Menus.Proofs.Changes
import Menus.Proofs.Freshness
import Menus.Proofs.Merging
import Menus.Proofs.Updates
import Menus.Proofs.Obtained
import Menus.Proofs.Undefined
import Menus.Proofs.Shares
import Menus.Proofs.References
import Menus.Proofs.Origins
import Menus.Proofs.Inlining
import Menus.Proofs.Fragments
import Menus.Proofs.Readings
import Menus.Proofs.Layouts
import Menus.Proofs.Division
import Menus.Proofs.Exclusions
import Menus.Proofs.Omissions
import Menus.Proofs.Thinning
import Menus.Proofs.Lowering
import Menus.Proofs.Concatenation
import Menus.Proofs.Outline
import Menus.Proofs.Hints
import Menus.Proofs.Descendants
import Menus.Proofs.Placing
import Menus.Proofs.Surroundings
import Menus.Proofs.Repeats
import Menus.Proofs.Combination
import Menus.Proofs.Formats
import Menus.Proofs.Numbering
import Menus.Proofs.Quotes
import Menus.Proofs.Levels
import Menus.Proofs.Shortening
import Menus.Proofs.Lines
import Menus.Proofs.LineEnds
import Menus.Proofs.Toolbars
import Menus.Proofs.Cuts
import Menus.Proofs.CommandTexts
import Menus.Proofs.Issues
import Menus.Proofs.Words
import Menus.Proofs.Positions
import Menus.Proofs.Calls
