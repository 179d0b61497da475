import WebSocket.Hosting.Service

/-!
# The echo server

The stream of the one client is standard input and output, as a program that listens for others
hands it on; the log goes to standard error.  Every message is sent back.
-/

namespace WebSocket

/-- Write the lines of the log that came since an earlier state. -/
def writeLog (earlier later : Records) : IO Unit := do
  let log ← IO.getStderr
  for line in later.linesSince earlier do
    log.putStrLn line
  log.flush

def writeClient (octets : Bytes) : IO Unit := do
  let output ← IO.getStdout
  output.write ⟨octets.toArray⟩
  output.flush

/-- Serve the client until it has nothing more to say or the server has let go of it. -/
partial def serveClient (s : Service) (time : Nat) : IO Service := do
  let octets := (← (← IO.getStdin).read 4096).data.toList
  let later ← IO.monoMsNow
  if octets.isEmpty then
    let (last, data) := s.finish
    writeClient data
    writeLog s.host.records last.host.records
    pure last
  else
    let (next, data, ended) := s.exchange (later - time) octets
    writeClient data
    writeLog s.host.records next.host.records
    if ended then pure next else serveClient next later

end WebSocket

/-- Serve one client, or say why not. -/
def main (arguments : List String) : IO UInt32 := do
  match WebSocket.CommandLine.ofArguments arguments with
  | .ok c =>
    let service := WebSocket.Service.start c
    WebSocket.writeLog WebSocket.Records.empty service.host.records
    let _ ← WebSocket.serveClient service (← IO.monoMsNow)
    pure 0
  | .error (.asked flag) =>
    IO.print flag.text
    pure 0
  | .error refusal =>
    IO.eprint refusal.message
    pure 2
