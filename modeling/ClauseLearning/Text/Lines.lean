/-!
Lines of a file. A line ends behind its line feed or with the file, and is text only if its bytes
are UTF-8; one bad line says nothing about the others.
-/

namespace ClauseLearning.Text

abbrev Line := Option (List Char)

def lineFeed : UInt8 := 10

def decodeLine (bytes : ByteArray) : Line := (String.fromUTF8? bytes).map String.toList

def linesFrom (bytes : ByteArray) (start i : Nat) : List Line :=
  if _inside : i < bytes.size then
    if bytes[i] = lineFeed then
      decodeLine (bytes.extract start i) :: linesFrom bytes (i + 1) (i + 1)
    else linesFrom bytes start (i + 1)
  else if start < i then [decodeLine (bytes.extract start i)]
  else []
termination_by bytes.size - i

def lines (bytes : ByteArray) : List Line := linesFrom bytes 0 0

end ClauseLearning.Text
