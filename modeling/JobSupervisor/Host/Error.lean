import JobSupervisor.Text.Quoted

/-!
# Errors of the operating system

An input or output error is either one that the operating system reported by number, or
one with a text of its own.  The texts of the numbered ones are those of Linux.

## Main definitions

* `IoError` — the two kinds of errors.
* `IoError.message` — the text for a reader.
* `IoError.detail` — the text with all parts of the error, as the daemon prints it.
-/

namespace JobSupervisor.Host

/-- An input or output error. -/
inductive IoError where
  | numbered (code : Int)
  | described (text : String)
  deriving DecidableEq, Repr

/-- The texts of the error numbers. -/
def errorTexts : List (Int × String) := [
  (1, "Operation not permitted"),
  (2, "No such file or directory"),
  (3, "No such process"),
  (4, "Interrupted system call"),
  (5, "Input/output error"),
  (6, "No such device or address"),
  (7, "Argument list too long"),
  (8, "Exec format error"),
  (9, "Bad file descriptor"),
  (10, "No child processes"),
  (11, "Resource temporarily unavailable"),
  (12, "Cannot allocate memory"),
  (13, "Permission denied"),
  (14, "Bad address"),
  (15, "Block device required"),
  (16, "Device or resource busy"),
  (17, "File exists"),
  (18, "Invalid cross-device link"),
  (19, "No such device"),
  (20, "Not a directory"),
  (21, "Is a directory"),
  (22, "Invalid argument"),
  (23, "Too many open files in system"),
  (24, "Too many open files"),
  (25, "Inappropriate ioctl for device"),
  (26, "Text file busy"),
  (27, "File too large"),
  (28, "No space left on device"),
  (29, "Illegal seek"),
  (30, "Read-only file system"),
  (31, "Too many links"),
  (32, "Broken pipe"),
  (33, "Numerical argument out of domain"),
  (34, "Numerical result out of range"),
  (35, "Resource deadlock avoided"),
  (36, "File name too long"),
  (37, "No locks available"),
  (38, "Function not implemented"),
  (39, "Directory not empty"),
  (40, "Too many levels of symbolic links"),
  (42, "No message of desired type"),
  (43, "Identifier removed"),
  (44, "Channel number out of range"),
  (45, "Level 2 not synchronized"),
  (46, "Level 3 halted"),
  (47, "Level 3 reset"),
  (48, "Link number out of range"),
  (49, "Protocol driver not attached"),
  (50, "No CSI structure available"),
  (51, "Level 2 halted"),
  (52, "Invalid exchange"),
  (53, "Invalid request descriptor"),
  (54, "Exchange full"),
  (55, "No anode"),
  (56, "Invalid request code"),
  (57, "Invalid slot"),
  (59, "Bad font file format"),
  (60, "Device not a stream"),
  (61, "No data available"),
  (62, "Timer expired"),
  (63, "Out of streams resources"),
  (64, "Machine is not on the network"),
  (65, "Package not installed"),
  (66, "Object is remote"),
  (67, "Link has been severed"),
  (68, "Advertise error"),
  (69, "Srmount error"),
  (70, "Communication error on send"),
  (71, "Protocol error"),
  (72, "Multihop attempted"),
  (73, "RFS specific error"),
  (74, "Bad message"),
  (75, "Value too large for defined data type"),
  (76, "Name not unique on network"),
  (77, "File descriptor in bad state"),
  (78, "Remote address changed"),
  (79, "Can not access a needed shared library"),
  (80, "Accessing a corrupted shared library"),
  (81, ".lib section in a.out corrupted"),
  (82, "Attempting to link in too many shared libraries"),
  (83, "Cannot exec a shared library directly"),
  (84, "Invalid or incomplete multibyte or wide character"),
  (85, "Interrupted system call should be restarted"),
  (86, "Streams pipe error"),
  (87, "Too many users"),
  (88, "Socket operation on non-socket"),
  (89, "Destination address required"),
  (90, "Message too long"),
  (91, "Protocol wrong type for socket"),
  (92, "Protocol not available"),
  (93, "Protocol not supported"),
  (94, "Socket type not supported"),
  (95, "Operation not supported"),
  (96, "Protocol family not supported"),
  (97, "Address family not supported by protocol"),
  (98, "Address already in use"),
  (99, "Cannot assign requested address"),
  (100, "Network is down"),
  (101, "Network is unreachable"),
  (102, "Network dropped connection on reset"),
  (103, "Software caused connection abort"),
  (104, "Connection reset by peer"),
  (105, "No buffer space available"),
  (106, "Transport endpoint is already connected"),
  (107, "Transport endpoint is not connected"),
  (108, "Cannot send after transport endpoint shutdown"),
  (109, "Too many references: cannot splice"),
  (110, "Connection timed out"),
  (111, "Connection refused"),
  (112, "Host is down"),
  (113, "No route to host"),
  (114, "Operation already in progress"),
  (115, "Operation now in progress"),
  (116, "Stale file handle"),
  (117, "Structure needs cleaning"),
  (118, "Not a XENIX named type file"),
  (119, "No XENIX semaphores available"),
  (120, "Is a named type file"),
  (121, "Remote I/O error"),
  (122, "Disk quota exceeded"),
  (123, "No medium found"),
  (124, "Wrong medium type"),
  (125, "Operation canceled"),
  (126, "Required key not available"),
  (127, "Key has expired"),
  (128, "Key has been revoked"),
  (129, "Key was rejected by service"),
  (130, "Owner died"),
  (131, "State not recoverable"),
  (132, "Operation not possible due to RF-kill"),
  (133, "Memory page has hardware error")]

/-- The classes of the error numbers, where there is a more telling one than the rest. -/
def errorClasses : List (Int × String) := [
  (1, "PermissionDenied"),
  (2, "NotFound"),
  (4, "Interrupted"),
  (7, "ArgumentListTooLong"),
  (11, "WouldBlock"),
  (12, "OutOfMemory"),
  (13, "PermissionDenied"),
  (16, "ResourceBusy"),
  (17, "AlreadyExists"),
  (18, "CrossesDevices"),
  (20, "NotADirectory"),
  (21, "IsADirectory"),
  (22, "InvalidInput"),
  (26, "ExecutableFileBusy"),
  (27, "FileTooLarge"),
  (28, "StorageFull"),
  (29, "NotSeekable"),
  (30, "ReadOnlyFilesystem"),
  (31, "TooManyLinks"),
  (32, "BrokenPipe"),
  (35, "Deadlock"),
  (36, "InvalidFilename"),
  (38, "Unsupported"),
  (39, "DirectoryNotEmpty"),
  (40, "FilesystemLoop"),
  (95, "Unsupported"),
  (98, "AddrInUse"),
  (99, "AddrNotAvailable"),
  (100, "NetworkDown"),
  (101, "NetworkUnreachable"),
  (103, "ConnectionAborted"),
  (104, "ConnectionReset"),
  (107, "NotConnected"),
  (110, "TimedOut"),
  (111, "ConnectionRefused"),
  (113, "HostUnreachable"),
  (115, "InProgress"),
  (116, "StaleNetworkFileHandle"),
  (122, "QuotaExceeded")]

/-- The text of an error number. -/
def errorText (code : Int) : String :=
  ((errorTexts.find? (·.1 = code)).map Prod.snd).getD ("Unknown error " ++ toString code)

/-- The class of an error number. -/
def errorClass (code : Int) : String :=
  ((errorClasses.find? (·.1 = code)).map Prod.snd).getD "Uncategorized"

namespace IoError

/-- There is no such file. -/
def notFound : IoError := .numbered 2

/-- The operation is not permitted on this object. -/
def permissionDenied : IoError := .numbered 13

/-- A part of the path that has to be a directory is none. -/
def notADirectory : IoError := .numbered 20

/-- A directory stands where a file has to be. -/
def isADirectory : IoError := .numbered 21

/-- The address does not belong to this host. -/
def addressNotAvailable : IoError := .numbered 99

/-- A name in a path is longer than names can be. -/
def nameTooLong : IoError := .numbered 36

/-- A text that goes to the operating system contains a zero byte. -/
def zeroByte : IoError := .described "nul byte found in provided data"

/-- The text for a reader. -/
def message : IoError → String
  | .numbered code => errorText code ++ " (os error " ++ toString code ++ ")"
  | .described text => text

/-- The text with all parts of the error. -/
def detail : IoError → String
  | .numbered code =>
      "Os \x7b code: " ++ toString code ++ ", kind: " ++ errorClass code ++ ", message: " ++
        Text.quoted (errorText code) ++ " \x7d"
  | .described text =>
      "Error \x7b kind: InvalidData, message: " ++ Text.quoted text ++ " \x7d"

end IoError

end JobSupervisor.Host
