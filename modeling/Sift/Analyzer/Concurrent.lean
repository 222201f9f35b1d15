import Sift.Analyzer
import Sift.Workers

/-!
# Analysing files at the same time

The files that are left to analyse are given to workers. What these share are the answers that the rule set
keeps: a call looks for one when it begins, and if there is none, it leaves its own when it ends.
-/

namespace Sift

namespace RuleSet

/-- What is kept of a question: its answer, unless there is one already. -/
def news (set : RuleSet) (languages : List String) (mask : Severity) : List (String × List Rule) :=
  match set.answers.lookup (answerKey languages mask) with
  | some _ => []
  | none => [(answerKey languages mask, set.lookup languages mask)]

/-- The set with more answers. -/
def learn (set : RuleSet) (news : List (String × List Rule)) : RuleSet :=
  { set with answers := news ++ set.answers }

end RuleSet

namespace Processor

/-- What is kept of the analysis of a text. -/
def news (processor : Processor) (text : Bytes) (languages : List String) : List (String × List Rule) :=
  match processor.rules with
  | none => []
  | some set => if text.isEmpty then [] else set.news languages (processor.mask.union .critical)

/-- The processor with more answers. -/
def learn (processor : Processor) (news : List (String × List Rule)) : Processor :=
  { processor with rules := processor.rules.map (·.learn news) }

end Processor

namespace Analyzer

/-- The content of a file that is not passed over. -/
def content? (analyzer : Analyzer) (files : FileSystem) (refuses : Refusals) (path : String) :
    Option Bytes :=
  match refuses.attempt "stat" path (files.stat path) with
  | .error _ => none
  | .ok entry =>
    let limit := analyzer.options.maxFileSize
    if 0 < limit && limit < sizeOf entry then none
    else
      match refuses.attempt "open" path (files.readFile path) with
      | .error _ => none
      | .ok content => if FileSystem.looksBinary content then none else some content

/-- What is kept of the analysis of a file. -/
def news (analyzer : Analyzer) (files : FileSystem) (refuses : Refusals) (path : String) :
    List (String × List Rule) :=
  match analyzer.content? files refuses path with
  | none => []
  | some content => analyzer.processor.news content (analyzer.resolver.resolve "" path)

/-- The analysis of a file as a call among others. -/
def job (analyzer : Analyzer) (files : FileSystem) (refuses : Refusals) :
    Workers.Job Processor String (FileResult × List (String × List Rule)) where
  answer processor path :=
    let analyzer := { analyzer with processor }
    (analyzer.candidate files path refuses, analyzer.news files refuses path)
  keep processor outcome := processor.learn outcome.2

/-- An analysis of files and directories with a limited number of workers may come to this. -/
def Reports (analyzer : Analyzer) (files : FileSystem) (limit : Int) (given : List String)
    (analysis : Analysis) (refuses : Refusals := .nothing) : Prop :=
  let arguments := given.map (analyzer.argument files refuses)
  ∃ outcomes, Workers.Returns limit (analyzer.job files refuses) (arguments.flatMap (·.candidates))
      analyzer.processor outcomes ∧
    analysis = ⟨(arguments.flatMap (·.settled) ++ outcomes.map (·.1)).mergeSort fun a b => a.path ≤ b.path⟩

end Analyzer

end Sift
