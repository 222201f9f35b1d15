import Sift.Watch

/-!
# The loop of a watcher

The loop waits for events of the watched directories and for the tick of its timer, and takes whichever it likes
if both are there. Meanwhile time runs out, late ticks come and the watched directories change, at any moment.
-/

namespace Sift.Reloader

/-- What happens in a step. -/
inductive Event where
  /-- An event is received and judged, by what the files are then. -/
  | receive (files : FileSystem) (event : Watcher.Event)
  /-- An error of the file watcher is received, and only logged. -/
  | fault
  /-- The loop goes on with a change. -/
  | proceed
  /-- The tick is received. -/
  | take
  | reload (files : FileSystem)
  /-- The loop is told to end. -/
  | leave
  /-- The timer runs out. -/
  | expire
  /-- A late tick comes. -/
  | delay
  /-- The watched directories change. -/
  | notice (notice : FileSystem.Notice)

/-- A step of the loop, or of what goes on around it. -/
inductive Step : Reloader → Event → Reloader → Prop where
  | change {reloader : Reloader} {files : FileSystem} {event : Watcher.Event}
      (selecting : reloader.quiet.stage = .selecting)
      (concerns : (reloader.watcher.judge files event).1 = true) :
      Step reloader (.receive files event)
        { reloader with watcher := (reloader.watcher.judge files event).2, quiet := reloader.quiet.change }
  | pass {reloader : Reloader} {files : FileSystem} {event : Watcher.Event}
      (selecting : reloader.quiet.stage = .selecting)
      (concerns : (reloader.watcher.judge files event).1 = false) :
      Step reloader (.receive files event)
        { reloader with watcher := (reloader.watcher.judge files event).2 }
  | fault {reloader : Reloader} (selecting : reloader.quiet.stage = .selecting) : Step reloader .fault reloader
  | proceed {reloader : Reloader} (busy : reloader.quiet.stage ∈ [.changed, .draining, .stopped]) :
      Step reloader .proceed { reloader with quiet := reloader.quiet.proceed }
  | take {reloader : Reloader} (selecting : reloader.quiet.stage = .selecting)
      (ticks : reloader.quiet.ticks = true) :
      Step reloader .take { reloader with quiet := reloader.quiet.take }
  | reload {reloader : Reloader} {files : FileSystem} (due : reloader.quiet.stage = .due) :
      Step reloader (.reload files) ({ reloader with quiet := reloader.quiet.resume }.reload files)
  | leave {reloader : Reloader} (selecting : reloader.quiet.stage = .selecting) :
      Step reloader .leave { reloader with quiet := reloader.quiet.leave }
  | expire {reloader : Reloader} {timer : Watch.Timer} (made : reloader.quiet.timer = some timer)
      (running : timer.running = true) : Step reloader .expire { reloader with quiet := reloader.quiet.expire }
  | delay {reloader : Reloader} {timer : Watch.Timer} (made : reloader.quiet.timer = some timer) :
      Step reloader .delay { reloader with quiet := reloader.quiet.delay }
  | notice {reloader : Reloader} (notice : FileSystem.Notice) :
      Step reloader (.notice notice) { reloader with watcher := (reloader.watcher.see notice).2 }

/-- Steps one after another. -/
inductive Run : Reloader → List Event → Reloader → Prop where
  | nil {reloader : Reloader} : Run reloader [] reloader
  | cons {reloader next last : Reloader} {event : Event} {events : List Event} (step : Step reloader event next)
      (run : Run next events last) : Run reloader (event :: events) last

end Sift.Reloader
