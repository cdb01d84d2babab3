/-!
Why characters could not be read: the bytes are no text, a path does not lead to
readable bytes, or the stream itself gave up.
-/
namespace ShiftReduce

/-- The cause of a failed read. -/
inductive ReadError where
  | invalidEncoding
  | notFound
  | notDirectory
  | isDirectory
  | interrupted (message : String)
  | timedOut (message : String)
  | failed (message : String)
  deriving DecidableEq

/-- The wording of a failed read; a stream that gave up brings its own. -/
def ReadError.message : ReadError → String
  | .invalidEncoding => "stream did not contain valid UTF-8"
  | .notFound => "No such file or directory (os error 2)"
  | .notDirectory => "Not a directory (os error 20)"
  | .isDirectory => "Is a directory (os error 21)"
  | .interrupted message => message
  | .timedOut message => message
  | .failed message => message

end ShiftReduce
