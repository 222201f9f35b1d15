import Sift.Processor
import Sift.Publishing

/-!
# Changing a processor while it is used

The rule set and the severities in force are published as one value, so that calls at the same time can change
them and read them. The answers that a rule set keeps are no part of what is published.
-/

namespace Sift.Processor

/-- A call that changes a processor. -/
inductive Update where
  | setRules (rules : Option RuleSet)
  | setSeverity (mask : Severity)
  /-- With the files that are there when they are read. -/
  | reload (files : FileSystem) (settings : Settings)

section Updates

variable (bundled : Option Corpus) (recursive : Bool)

/-- The processor after a call that nothing else happens during. -/
def updated (processor : Processor) : Update → Processor
  | .setRules rules => processor.setRules rules
  | .setSeverity mask => processor.setSeverity mask
  | .reload files settings => (processor.reload files bundled recursive settings).1

/-- How a call publishes: one that sets a part keeps the other part as it finds it, and one that loads the rules
anew looks at neither. -/
def Update.effect (syntaxes : SyntaxRegistry) : Update → Publishing.Effect Processor
  | setRules rules => .modify (·.setRules rules)
  | setSeverity mask => .modify (·.setSeverity mask)
  | reload files settings =>
    .replace (({ rules := none, syntaxes } : Processor).reload files bundled recursive settings).1

end Updates

end Sift.Processor
