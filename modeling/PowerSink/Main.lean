import PowerSink.Demo

/-!
# Command line

Shows the demonstration on standard error, one line for each message.
-/

namespace PowerSink

def emit (line : LogLine) : IO Unit :=
  IO.eprintln ("[" ++ line.level.label ++ "] " ++ line.text)

end PowerSink

def main : IO Unit :=
  (PowerSink.Demo.lines PowerSink.Demo.previous).forM PowerSink.emit
